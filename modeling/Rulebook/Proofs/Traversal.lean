/-
# Traversals

A list is worked through with a step that may give no result. The traversal
succeeds if every step does, and what it gives is then what the steps give, place
by place; if it stops, it stops with what one of the steps stopped with.
-/

namespace Rulebook

variable {α β ε : Type} {xs : List α} {ys : List β}

theorem toOption_eq_some_iff {x : Except ε α} {a : α} : x.toOption = some a ↔ x = .ok a := by
  cases x <;> simp [Except.toOption]

/-- What a computation stops with, if it does. -/
def fault? : Except ε α → Option ε
  | .error e => some e
  | .ok _ => none

theorem fault?_eq_some_iff {x : Except ε α} {e : ε} : fault? x = some e ↔ x = .error e := by
  cases x <;> simp [fault?]

theorem bind_eq_ok_iff {x : Except ε α} {f : α → Except ε β} {b : β} :
    x >>= f = .ok b ↔ ∃ a, x = .ok a ∧ f a = .ok b := by
  cases x <;> simp [bind, Except.bind]

theorem error_of_map {x : Except ε α} {f : α → β} {e : ε} (h : x.map f = .error e) :
    x = .error e := by
  cases x with
  | error e' =>
      cases h
      rfl
  | ok a => cases h

theorem exists_map_eq_ok_iff {x : Except ε α} {f : α → β} :
    (∃ b, x.map f = .ok b) ↔ ∃ a, x = .ok a := by
  cases x <;> simp [Except.map]

theorem mapM_eq_some_iff {f : α → Option β} : xs.mapM f = some ys ↔ xs.map f = ys.map some := by
  induction xs generalizing ys with
  | nil => cases ys <;> simp
  | cons x rest ih =>
      rw [List.mapM_cons]
      cases hx : f x with
      | none => cases ys <;> simp [hx]
      | some y =>
          cases ys with
          | nil => cases rest.mapM f <;> simp
          | cons z zs =>
              rw [List.map_cons, List.map_cons, hx, List.cons.injEq, ← ih]
              cases rest.mapM f <;> simp

/-- If both answer for all items, traversing with one is picking with the other. -/
theorem mapM_eq_filterMap {f g : α → Option β}
    (hfg : ∀ x ∈ xs, f x = g x ∧ (g x).isSome = true) : xs.mapM f = some (xs.filterMap g) := by
  rw [mapM_eq_some_iff]
  induction xs with
  | nil => rfl
  | cons x rest ih =>
      obtain ⟨⟨heq, hsome⟩, hrest⟩ := List.forall_mem_cons.1 hfg
      obtain ⟨y, hy⟩ := Option.isSome_iff_exists.1 hsome
      rw [List.map_cons, List.filterMap_cons_some hy, List.map_cons, heq, hy, ih hrest]

theorem mapM_eq_ok_iff {f : α → Except ε β} : xs.mapM f = .ok ys ↔ xs.map f = ys.map .ok := by
  induction xs generalizing ys with
  | nil => cases ys <;> simp [pure, Except.pure]
  | cons x rest ih =>
      rw [List.mapM_cons]
      cases hx : f x with
      | error e => cases ys <;> simp [bind, Except.bind, hx]
      | ok y =>
          cases ys with
          | nil => cases rest.mapM f <;> simp [bind, Except.bind, pure, Except.pure]
          | cons z zs =>
              rw [List.map_cons, List.map_cons, hx, List.cons.injEq, ← ih]
              cases rest.mapM f <;> simp [bind, Except.bind, pure, Except.pure]

/-- A traversal that succeeds has a result for every item. -/
theorem exists_mem_of_mapM_eq_ok {f : α → Except ε β} (h : xs.mapM f = .ok ys) {x : α}
    (hx : x ∈ xs) : ∃ y ∈ ys, f x = .ok y := by
  have hmem : f x ∈ ys.map Except.ok := mapM_eq_ok_iff.1 h ▸ List.mem_map_of_mem hx
  obtain ⟨y, hy, heq⟩ := List.mem_map.1 hmem
  exact ⟨y, hy, heq.symm⟩

/-- Every result of a traversal is that of an item. -/
theorem exists_of_mem_mapM {f : α → Except ε β} (h : xs.mapM f = .ok ys) {y : β}
    (hy : y ∈ ys) : ∃ x ∈ xs, f x = .ok y := by
  have hmem : Except.ok y ∈ xs.map f := mapM_eq_ok_iff.1 h ▸ List.mem_map_of_mem hy
  exact List.mem_map.1 hmem

theorem mapM_cons_eq_error_iff {f : α → Except ε β} {x : α} {e : ε} :
    (x :: xs).mapM f = .error e ↔ f x = .error e ∨ (∃ y, f x = .ok y) ∧ xs.mapM f = .error e := by
  rw [List.mapM_cons]
  cases f x <;> cases xs.mapM f <;> simp [bind, Except.bind, pure, Except.pure]

/-- A traversal stops with the first item that fails: all items before it have results, and
those after it do not matter. -/
theorem mapM_eq_error_iff {f : α → Except ε β} {e : ε} : xs.mapM f = .error e ↔
    ∃ before x after, xs = before ++ x :: after ∧ (∀ y ∈ before, ∃ b, f y = .ok b) ∧
      f x = .error e := by
  induction xs with
  | nil => simp [pure, Except.pure]
  | cons x rest ih =>
      rw [mapM_cons_eq_error_iff, ih]
      constructor
      · rintro (hx | ⟨hx, before, x', after, rfl, hbefore, hx'⟩)
        · exact ⟨[], x, rest, rfl, nofun, hx⟩
        · exact ⟨x :: before, x', after, rfl, List.forall_mem_cons.2 ⟨hx, hbefore⟩, hx'⟩
      · rintro ⟨before, x', after, hsplit, hbefore, hx'⟩
        cases before with
        | nil =>
            cases hsplit
            exact .inl hx'
        | cons _ before =>
            cases hsplit
            obtain ⟨hx, hbefore⟩ := List.forall_mem_cons.1 hbefore
            exact .inr ⟨hx, before, x', after, rfl, hbefore, hx'⟩

/-- Traversals stop with the same if their items do, place by place. -/
theorem fault?_mapM_map {γ δ : Type} {f : α → Except ε β} {g : γ → Except ε δ} {k : α → γ}
    (h : ∀ x ∈ xs, fault? (f x) = fault? (g (k x))) :
    fault? (xs.mapM f) = fault? ((xs.map k).mapM g) := by
  induction xs with
  | nil => rfl
  | cons x rest ih =>
      obtain ⟨hx, hrest⟩ := List.forall_mem_cons.1 h
      have hfault := ih hrest
      rw [List.map_cons, List.mapM_cons, List.mapM_cons]
      cases hf : f x <;> cases hg : g (k x) <;> rw [hf, hg] at hx <;> cases hx
      · rfl
      · cases hxs : rest.mapM f <;> cases hys : (rest.map k).mapM g <;> rw [hxs, hys] at hfault <;>
          cases hfault <;> rfl

/-- A traversal fails with what one of the items fails with. -/
theorem exists_error_of_mapM {f : α → Except ε β} {e : ε} (h : xs.mapM f = .error e) :
    ∃ x ∈ xs, f x = .error e := by
  obtain ⟨before, x, after, rfl, -, hx⟩ := mapM_eq_error_iff.1 h
  exact ⟨x, List.mem_append_right _ List.mem_cons_self, hx⟩

/-- To traverse some of the items is to keep their results, if a result tells whether its
item was among them. -/
theorem mapM_filter_of_eq_ok {f : α → Except ε β} (h : xs.mapM f = .ok ys) {q : α → Bool}
    {r : β → Bool} (hqr : ∀ x y, f x = .ok y → q x = r y) :
    (xs.filter q).mapM f = .ok (ys.filter r) := by
  rw [mapM_eq_ok_iff] at h ⊢
  induction xs generalizing ys with
  | nil =>
      obtain rfl : ys = [] := by simpa using h.symm
      rfl
  | cons x rest ih =>
      cases ys with
      | nil => cases h
      | cons y ys =>
          obtain ⟨hy, hrest⟩ := List.cons.inj h
          rw [List.filter_cons, List.filter_cons, hqr x y hy]
          cases r y with
          | false => exact ih hrest
          | true =>
              show f x :: (rest.filter q).map f = .ok y :: (ys.filter r).map .ok
              rw [hy, ih hrest]

end Rulebook
