/-
# A session on the desk

A session with everything it moves about: the values and the traces of slots in two
tables, and a stack with a frame for every slot that is being evaluated, where what a slot
consults is noted in the frame on top. Each operation is one step on that state, in the
order in which it happens, and recursion takes from a budget. A session is held against
this: on the desk that lays out what the session remembers, every call ends within a budget
known before, with the outcome that it has on the session and with the desk that lays out
what the session remembers then.
-/

import Rulebook.Proofs.Consultation

namespace Rulebook

/-! ## The desk -/

/-- A slot being evaluated, with what it consulted so far. -/
structure Frame where
  slot : Nat
  consulted : List Nat

/-- How a slot got its value: what gave it, and what was consulted. -/
structure Trace where
  resolver : String
  consulted : List Nat

/-- The state of a session; newer entries of a table hide older ones, and the newest frame
is on top. -/
structure Desk where
  values : List (Nat × Value)
  traces : List (Nat × Trace)
  frames : List Frame

namespace Desk

instance : EmptyCollection Desk := ⟨⟨[], [], []⟩⟩

/-- Note in the frame on top that a slot was consulted. -/
def noteOnTop (slot : Nat) : List Frame → List Frame
  | [] => []
  | frame :: below => { frame with consulted := firstUse frame.consulted slot } :: below

def note (desk : Desk) (slot : Nat) : Desk := { desk with frames := noteOnTop slot desk.frames }

/-- Put a frame for a slot on top. -/
def enter (desk : Desk) (slot : Nat) : Desk :=
  { desk with frames := ⟨slot, []⟩ :: desk.frames }

/-- Take the frame of a slot from the top; a value is put down with its trace, a fault is
passed on. -/
def leave (desk : Desk) (slot : Nat) (outcome : Except Fault (Value × String)) :
    Except Fault Value × Desk :=
  let consulted := (desk.frames.head?.map (·.consulted)).getD []
  let desk := { desk with frames := desk.frames.tail }
  match outcome with
  | .error fault => (.error fault, desk)
  | .ok (value, resolver) =>
    (.ok value, { desk with
      traces := (slot, ⟨resolver, consulted⟩) :: desk.traces
      values := (slot, value) :: desk.values })

/-- Whether a slot has a value. -/
def isSettled (desk : Desk) (slot : Nat) : Bool := (desk.values.lookup slot).isSome

section Program

variable (p : Program) (ctx : Context)

/-- The value of a slot, looked up or computed inside the slots that have a frame. -/
def resolveSlot : Nat → Nat → ExceptT Fault (StateT Desk Option) Value
  | 0, _ => fun _ => none
  | budget + 1, slot => fun desk =>
    let desk := desk.note slot
    let walk := desk.frames.map (·.slot)
    match desk.values.lookup slot, p.slots[slot]? with
    | some value, _ => some (.ok value, desk)
    | none, none => some (.error (.unresolvedBinding s!"#{slot}"), desk)
    | none, some entry =>
      if slot ∈ walk then some (.error (p.cycleFault walk slot), desk)
      else
        ((p.derive ctx (resolveSlot budget) entry).run.run (desk.enter slot)).map
          fun (outcome, desk) => desk.leave slot outcome

/-- The tree of how a slot got its value; of what it consulted only what has a value. -/
def explanation (desk : Desk) : Nat → Nat → Option Explanation
  | 0, _ => none
  | budget + 1, slot => do
    let entry ← p.slots[slot]?
    let trace := desk.traces.lookup slot
    let consulted := (trace.map (·.consulted)).getD []
    let dependencies ← (consulted.filter desk.isSettled).mapM (explanation desk budget)
    return ⟨entry.name, entry.kind, (desk.values.lookup slot).getD .null,
      (trace.map (·.resolver)).getD entry.description, dependencies⟩

end Program

end Desk

/-! ## Calls -/

/-- What a session can be asked. -/
inductive Call where
  | resolve (name : String)
  | satisfiedTraits
  | explain (name : String)

/-- What a call answers. -/
inductive Answer where
  | value (v : Value)
  | names (satisfied : NameSet)
  | tree (t : Explanation)

/-- The outcome of a call on a session, and the session afterwards. -/
def Session.call (s : Session) : Call → Except Fault Answer × Session
  | .resolve name => ((s.resolve name).1.map .value, (s.resolve name).2)
  | .satisfiedTraits => (s.satisfiedTraits.1.map .names, s.satisfiedTraits.2)
  | .explain name => ((s.explain name).1.map .tree, (s.explain name).2)

namespace Desk

variable (p : Program) (ctx : Context) (desk : Desk)

/-- The value of a name, and the desk afterwards; the budget is one more than there are
slots. -/
def resolve (name : String) : Option (Except Fault Value × Desk) :=
  match p.slotOf name with
  | .error fault => some (.error fault, desk)
  | .ok slot => (resolveSlot p ctx (p.size + 1) slot).run.run desk

/-- The names of the traits that hold, and the desk afterwards. -/
def satisfiedTraits : Option (Except Fault NameSet × Desk) :=
  (p.satisfied (resolveSlot p ctx (p.size + 1))).run.run desk

/-- The tree of how a name got its value, and the desk afterwards; the budget for the tree
is one more than there are values. -/
def explain (name : String) : Option (Except Fault Explanation × Desk) :=
  match p.slotOf name with
  | .error fault => some (.error fault, desk)
  | .ok slot => do
    match ← desk.resolve p ctx name with
    | (.error fault, desk) => return (.error fault, desk)
    | (.ok _, desk) => return (.ok (← desk.explanation p (desk.values.length + 1) slot), desk)

/-- Whether a name has a value. -/
def isResolved (name : String) : Bool :=
  match p.slotOf? name with
  | some slot => desk.isSettled slot
  | none => false

/-- The outcome of a call, and the desk afterwards. -/
def call : Call → Option (Except Fault Answer × Desk)
  | .resolve name => (desk.resolve p ctx name).map fun (outcome, desk) =>
      (outcome.map .value, desk)
  | .satisfiedTraits => (desk.satisfiedTraits p ctx).map fun (outcome, desk) =>
      (outcome.map .names, desk)
  | .explain name => (desk.explain p ctx name).map fun (outcome, desk) =>
      (outcome.map .tree, desk)

end Desk

/-! ## What a session remembers, laid out -/

namespace Memo

/-- What is remembered, in two tables, under a stack of frames. -/
def desk (memo : Memo) (frames : List Frame) : Desk where
  values := memo.map fun d => (d.slot, d.value)
  traces := memo.map fun d => (d.slot, ⟨d.resolver, d.consulted⟩)
  frames := frames

variable {memo : Memo} {frames : List Frame} {slot : Nat}

/-- What a table of the remembered slots has for a slot. -/
theorem lookup_map {β : Type} (f : Derivation → β) :
    (memo.map fun d => (d.slot, f d)).lookup slot = (memo.entry? slot).map f := by
  induction memo with
  | nil => rfl
  | cons d older ih =>
      rw [List.map_cons, List.lookup_cons, entry?_cons, ih]
      by_cases hslot : d.slot = slot
      · simp [hslot]
      · have hne : (slot == d.slot) = false := by simpa using Ne.symm hslot
        simp [hslot, hne]

theorem lookup_values_desk :
    (memo.desk frames).values.lookup slot = (memo.entry? slot).map (·.value) := lookup_map _

theorem lookup_traces_desk :
    (memo.desk frames).traces.lookup slot =
      (memo.entry? slot).map fun d => ⟨d.resolver, d.consulted⟩ := lookup_map _

theorem isSettled_desk : (memo.desk frames).isSettled slot = (memo.entry? slot).isSome := by
  rw [Desk.isSettled, lookup_values_desk, Option.isSome_map]

end Memo

/-- A slot being evaluated, laid out: its frame is on top, and holds what was noted. -/
def Progress.desk (slot : Nat) (frames : List Frame) (progress : Progress) : Desk :=
  progress.memo.desk (⟨slot, progress.consulted⟩ :: frames)

/-! ## Resolving on the desk -/

namespace Coupling

variable {σ : Type} {view : σ → Desk}

/-- A computation on the desk does what it does on the state that the desk lays out. -/
def mirrors (view : σ → Desk) :
    Coupling (ExceptT Fault (StateT Desk Option)) (ExceptT Fault (StateM σ)) where
  Rel x y := ∀ s, x.run.run (view s) = some ((y.run s).1, view (y.run s).2)
  pure _ _ := rfl
  bind {_ _ x y f g} hx hf s := by
    rw [ExceptT.run_bind, StateT.run_bind, hx s, run_bind]
    rcases y.run s with ⟨fault | a, s'⟩
    · rfl
    · exact hf a s'

theorem mirrors_throw {α : Type} (fault : Fault) :
    (mirrors view).Rel (throw fault : ExceptT Fault (StateT Desk Option) α) (throw fault) :=
  fun _ => rfl

/-- To resolve a slot on the desk is to ask for it, if it does what a look-up does and notes
the slot on top. -/
theorem mirrors_ask {lookUp : Nat → Memo → Except Fault Value × Memo}
    {x : ExceptT Fault (StateT Desk Option) Value} {slot next : Nat} {frames : List Frame}
    (hx : ∀ memo consulted, x.run.run (Memo.desk memo (⟨slot, consulted⟩ :: frames)) =
      some ((lookUp next memo).1,
        (lookUp next memo).2.desk (⟨slot, firstUse consulted next⟩ :: frames))) :
    (mirrors (Progress.desk slot frames)).Rel x (Progress.ask lookUp next) := by
  intro progress
  obtain ⟨hvalue, hmemo⟩ := Progress.run_ask lookUp next progress
  unfold Progress.desk
  rw [hx, hvalue, hmemo, Progress.run_ask_consulted]

end Coupling

namespace Desk

@[simp] theorem map_slot_noteOnTop (slot : Nat) (frames : List Frame) :
    (noteOnTop slot frames).map (·.slot) = frames.map (·.slot) := by
  cases frames <;> rfl

section Equations

variable {p : Program} {ctx : Context} {desk : Desk} {slot : Nat}

theorem resolveSlot_of_value {v : Value} (hvalue : desk.values.lookup slot = some v)
    (budget : Nat) :
    (resolveSlot p ctx (budget + 1) slot).run.run desk = some (.ok v, desk.note slot) := by
  simp [resolveSlot, note, ExceptT.run, StateT.run, hvalue]

variable (hnew : desk.values.lookup slot = none)

include hnew

theorem resolveSlot_of_missing (hslot : p.slots[slot]? = none) (budget : Nat) :
    (resolveSlot p ctx (budget + 1) slot).run.run desk =
      some (.error (.unresolvedBinding s!"#{slot}"), desk.note slot) := by
  simp [resolveSlot, note, ExceptT.run, StateT.run, hnew, hslot]

variable {entry : Slot} (hslot : p.slots[slot]? = some entry)

include hslot

theorem resolveSlot_of_mem (hwalk : slot ∈ desk.frames.map (·.slot)) (budget : Nat) :
    (resolveSlot p ctx (budget + 1) slot).run.run desk =
      some (.error (p.cycleFault (desk.frames.map (·.slot)) slot), desk.note slot) := by
  simp [resolveSlot, note, ExceptT.run, StateT.run, hnew, hslot, hwalk]

theorem resolveSlot_of_not_mem (hwalk : slot ∉ desk.frames.map (·.slot)) (budget : Nat) :
    (resolveSlot p ctx (budget + 1) slot).run.run desk =
      ((p.derive ctx (resolveSlot p ctx budget) entry).run.run ((desk.note slot).enter slot)).map
        fun (outcome, desk) => desk.leave slot outcome := by
  simp [resolveSlot, note, ExceptT.run, StateT.run, hnew, hslot, hwalk]

end Equations

/-- A tree is told of a slot that has a trace, if all that it consulted has a value. -/
theorem explanation_of_trace {p : Program} {desk : Desk} {slot : Nat} {entry : Slot} {v : Value}
    {trace : Trace} {budget : Nat} {dependencies : List Explanation}
    (hslot : p.slots[slot]? = some entry) (hvalue : desk.values.lookup slot = some v)
    (htrace : desk.traces.lookup slot = some trace)
    (hsettled : ∀ next ∈ trace.consulted, desk.isSettled next = true)
    (hdependencies : trace.consulted.mapM (desk.explanation p budget) = some dependencies) :
    desk.explanation p (budget + 1) slot =
      some ⟨entry.name, entry.kind, v, trace.resolver, dependencies⟩ := by
  rw [explanation]
  simp [hslot, hvalue, htrace, List.filter_eq_self.2 hsettled, hdependencies]

/-- A slot is left on the desk as it is left in a session. -/
theorem leave_desk {slot : Nat} (frames : List Frame) (outcome : Except Fault (Value × String))
    (progress : Progress) :
    (progress.desk slot frames).leave slot outcome =
      ((Progress.finish slot (outcome, progress)).1,
        (Progress.finish slot (outcome, progress)).2.desk frames) := by
  rcases outcome with fault | ⟨v, text⟩ <;> rfl

end Desk

namespace Schema.Compiled

variable {schema : Schema} {registry : Registry} {p : Program} {ctx : Context}
  (h : schema.Compiled registry p)

include h

/-- A slot that is entered resolves on the desk as it does in a session, if those inside of
it do and are noted in its frame. -/
theorem resolveSlot_desk_of_inside {budget slot : Nat} {frames : List Frame} {memo : Memo}
    {entry : Slot} (hnew : memo.entry? slot = none) (hslot : p.slots[slot]? = some entry)
    (hwalk : slot ∉ frames.map (·.slot))
    (hinside : ∀ next memo consulted, (Desk.resolveSlot p ctx budget next).run.run
        (Memo.desk memo (⟨slot, consulted⟩ :: Desk.noteOnTop slot frames)) =
      some ((p.resolveWith ctx (slot :: frames.map (·.slot)) next memo).1,
        (p.resolveWith ctx (slot :: frames.map (·.slot)) next memo).2.desk
          (⟨slot, firstUse consulted next⟩ :: Desk.noteOnTop slot frames))) :
    (Desk.resolveSlot p ctx (budget + 1) slot).run.run (memo.desk frames) =
      some ((p.resolveWith ctx (frames.map (·.slot)) slot memo).1,
        (p.resolveWith ctx (frames.map (·.slot)) slot memo).2.desk
          (Desk.noteOnTop slot frames)) := by
  have hlookup : (memo.desk frames).values.lookup slot = none := by
    rw [Memo.lookup_values_desk, hnew]
    rfl
  have hask : ∀ next, (Coupling.mirrors (Progress.desk slot (Desk.noteOnTop slot frames))).Rel
      (Desk.resolveSlot p ctx budget next)
      (Progress.ask (p.resolveWith ctx (slot :: frames.map (·.slot))) next) :=
    fun next => Coupling.mirrors_ask (hinside next)
  have hderive := h.coupled_derive _ ctx (fun fault _ => Coupling.mirrors_throw fault) hslot
    (fun next _ => hask next) ⟨memo, []⟩
  have henter : ((memo.desk frames).note slot).enter slot =
      Progress.desk slot (Desk.noteOnTop slot frames) ⟨memo, []⟩ := rfl
  rw [Desk.resolveSlot_of_not_mem hlookup hslot hwalk,
    Program.resolveWith_of_not_mem hnew hslot hwalk, henter, hderive, Option.map_some]
  exact congrArg some (Desk.leave_desk _ _ _)

/-- On the desk a slot resolves as it does in a session, inside the slots that have a
frame; it is noted in the frame on top, and the other frames are as they were. -/
theorem resolveSlot_desk {budget : Nat} (frames : List Frame)
    (hbudget : nodesLeft (List.range p.size) (frames.map (·.slot)) < budget)
    (slot : Nat) (memo : Memo) :
    (Desk.resolveSlot p ctx budget slot).run.run (memo.desk frames) =
      some ((p.resolveWith ctx (frames.map (·.slot)) slot memo).1,
        (p.resolveWith ctx (frames.map (·.slot)) slot memo).2.desk
          (Desk.noteOnTop slot frames)) := by
  induction budget generalizing frames slot memo with
  | zero => exact absurd hbudget (Nat.not_lt_zero _)
  | succ budget ih =>
      have hlookup : (memo.desk frames).values.lookup slot = _ := Memo.lookup_values_desk
      cases hnew : memo.entry? slot with
      | some d =>
          rw [hnew] at hlookup
          rw [Desk.resolveSlot_of_value hlookup, Program.resolveWith_of_entry hnew]
          rfl
      | none =>
        rw [hnew] at hlookup
        cases hslot : p.slots[slot]? with
        | none =>
            rw [Desk.resolveSlot_of_missing hlookup hslot, Program.resolveWith_of_none hnew hslot]
            rfl
        | some entry =>
            by_cases hwalk : slot ∈ frames.map (·.slot)
            · rw [Desk.resolveSlot_of_mem hlookup hslot hwalk,
                Program.resolveWith_of_mem hnew hslot hwalk]
              rfl
            · apply h.resolveSlot_desk_of_inside hnew hslot hwalk
              intro next memo consulted
              have hsize : slot ∈ List.range p.size :=
                List.mem_range.2 (List.getElem?_eq_some_iff.1 hslot).1
              have hless := nodesLeft_cons_lt_of_lt_succ hbudget hsize hwalk
              have hrun := ih (⟨slot, consulted⟩ :: Desk.noteOnTop slot frames)
                (by simpa using hless) next memo
              rwa [List.map_cons, Desk.map_slot_noteOnTop] at hrun

/-! ## Trees on the desk -/

/-- What is remembered is told on the desk as it is told in a session: whatever was
consulted has a value. -/
theorem explanation_desk {memo : Memo} (hfounded : memo.Founded p ctx)
    (hrecorded : memo.Recorded p ctx) (frames : List Frame) {older : Memo}
    (hsuffix : older <:+ memo) {budget : Nat} (hbudget : older.length < budget) {slot : Nat}
    {d : Derivation} (hd : older.entry? slot = some d) :
    (memo.desk frames).explanation p budget slot = older.explanation? p slot := by
  induction budget generalizing older slot d with
  | zero => exact absurd hbudget (Nat.not_lt_zero _)
  | succ budget ih =>
      obtain ⟨entry, hentry⟩ := (hrecorded.of_suffix hsuffix).exists_slot hd
      obtain ⟨before, hnewest, htold⟩ := Memo.exists_explanation hd hentry
      have hbefore : before <:+ memo := ((List.suffix_cons d before).trans hnewest).trans hsuffix
      have hless : before.length < budget := by
        have hlength := hnewest.length_le
        rw [List.length_cons] at hlength
        omega
      obtain ⟨-, hconsulted⟩ :=
        h.consulted_of_recorded (hrecorded.of_suffix (hnewest.trans hsuffix))
      have hlast := hfounded.entry?_of_suffix hsuffix hd
      have hvalue : (memo.desk frames).values.lookup slot = some d.value := by
        rw [Memo.lookup_values_desk, hlast]
        rfl
      have htrace : (memo.desk frames).traces.lookup slot = some ⟨d.resolver, d.consulted⟩ := by
        rw [Memo.lookup_traces_desk, hlast]
        rfl
      rw [htold]
      apply Desk.explanation_of_trace hentry hvalue htrace
      · intro next hnext
        obtain ⟨e, he⟩ := hconsulted next hnext
        rw [Memo.isSettled_desk, hfounded.entry?_of_suffix hbefore he]
        rfl
      · apply mapM_eq_filterMap
        intro next hnext
        obtain ⟨e, he⟩ := hconsulted next hnext
        obtain ⟨tree, htree, -⟩ := (hrecorded.of_suffix hbefore).exists_told he
        refine ⟨ih hbefore hless he, ?_⟩
        rw [htree]
        rfl

end Schema.Compiled

/-! ## Calls on the desk -/

/-- What a session remembers, laid out between two calls. -/
def Session.desk (s : Session) : Desk := s.memo.desk []

/-- What has a value on the desk is what was evaluated in the session. -/
theorem Session.isResolved_desk (s : Session) (name : String) :
    s.desk.isResolved s.program name = s.isResolved name := by
  unfold Desk.isResolved isResolved desk
  cases s.program.slotOf? name with
  | none => rfl
  | some slot => exact Memo.isSettled_desk

/-- A desk after any number of calls. -/
inductive Desk.Reached (p : Program) (ctx : Context) : Desk → Prop
  | start : Reached p ctx ∅
  | call {desk after : Desk} {outcome : Except Fault Answer} (c : Call) : Reached p ctx desk →
      desk.call p ctx c = some (outcome, after) → Reached p ctx after

/-- A name that resolves is remembered, and what it is explained by is what is told then. -/
theorem Session.exists_told_of_ok {s : Session} {name : String} {slot : Nat} {v : Value}
    (hrecorded : (s.resolve name).2.memo.Recorded s.program s.context)
    (hslot : s.program.slotOf? name = some slot) (hvalue : (s.resolve name).1 = .ok v) :
    ∃ d tree, Memo.entry? (s.resolve name).2.memo slot = some d ∧
      (s.resolve name).2.memo.explanation? s.program slot = some tree ∧
      (s.explain name).1 = .ok tree := by
  have hafter := resolve_of_slotOf? hslot
  obtain ⟨d, hd, -⟩ := Program.entry?_of_resolveWith [] slot s.memo v
    ((congrArg Prod.fst hafter).symm.trans hvalue)
  have hremembered : Memo.entry? (s.resolve name).2.memo slot = some d := by rwa [hafter]
  obtain ⟨entry, hentry⟩ := hrecorded.exists_slot hremembered
  obtain ⟨tree, htree⟩ := exists_tree_of_ok hslot hentry hvalue
  obtain ⟨slot', hslot', htold⟩ := explanation?_of_explain htree
  have hprogram : (s.resolve name).2.program = s.program :=
    congrArg (fun r => r.2.program) hafter
  rw [hprogram] at hslot' htold
  obtain rfl := Option.some.inj (hslot.symm.trans hslot')
  exact ⟨d, tree, hremembered, htold, htree⟩

/-- A call is a step of the session. -/
theorem Session.step_call (s : Session) (c : Call) : s.Step (s.call c).2 := by
  cases c with
  | resolve name => exact .resolve name
  | satisfiedTraits => exact .satisfiedTraits
  | explain name => exact .explain name

namespace Schema.Compiled

variable {schema : Schema} {registry : Registry} {p : Program} {ctx : Context}
  (h : schema.Compiled registry p)

include h

/-- Between two calls, a slot resolves on the desk as it does in a session. -/
theorem resolveSlot_desk_nil (slot : Nat) (memo : Memo) :
    (Desk.resolveSlot p ctx (p.size + 1) slot).run.run (memo.desk []) =
      some ((p.resolveWith ctx [] slot memo).1, (p.resolveWith ctx [] slot memo).2.desk []) := by
  have hbudget : nodesLeft (List.range p.size) (([] : List Frame).map (·.slot)) < p.size + 1 := by
    simp
  exact h.resolveSlot_desk [] hbudget slot memo

variable {s : Session} (hprogram : s.program = p) (hcontext : s.context = ctx)

include hprogram hcontext

theorem desk_resolve (name : String) :
    s.desk.resolve p ctx name = some ((s.resolve name).1, (s.resolve name).2.desk) := by
  subst hprogram hcontext
  unfold Desk.resolve Program.slotOf
  cases hslot : s.program.slotOf? name with
  | none =>
      rw [Session.resolve_of_slotOf?_eq_none hslot]
  | some slot =>
      rw [Session.resolve_of_slotOf? hslot]
      exact h.resolveSlot_desk_nil slot s.memo

theorem desk_satisfiedTraits :
    s.desk.satisfiedTraits p ctx = some (s.satisfiedTraits.1, s.satisfiedTraits.2.desk) := by
  subst hprogram hcontext
  exact Coupling.satisfied (Coupling.mirrors fun memo : Memo => memo.desk [])
    (fun slot _ => h.resolveSlot_desk_nil slot) s.memo

theorem desk_explain {name : String} (hmemo : (s.resolve name).2.memo.Founded p ctx)
    (hrecorded : (s.resolve name).2.memo.Recorded p ctx) :
    s.desk.explain p ctx name = some ((s.explain name).1, (s.explain name).2.desk) := by
  have hresolve := h.desk_resolve hprogram hcontext name
  subst hprogram hcontext
  rw [Session.explain_snd]
  unfold Desk.explain Program.slotOf
  cases hslot : s.program.slotOf? name with
  | none =>
      have hunknown := Session.resolve_of_slotOf?_eq_none hslot
      rw [Session.explain_of_error (congrArg Prod.fst hunknown), hunknown]
  | some slot =>
      cases hvalue : (s.resolve name).1 with
      | error fault =>
          simp only [hresolve, hvalue, Session.explain_of_error hvalue]
          rfl
      | ok v =>
          obtain ⟨d, tree, hd, htold, htree⟩ := Session.exists_told_of_ok hrecorded hslot hvalue
          have hbudget : (s.resolve name).2.memo.length <
              (s.resolve name).2.desk.values.length + 1 := by
            simp [Session.desk, Memo.desk]
          have htoldOnDesk : (s.resolve name).2.desk.explanation s.program
              ((s.resolve name).2.desk.values.length + 1) slot = some tree :=
            (h.explanation_desk hmemo hrecorded [] (List.suffix_refl _) hbudget hd).trans htold
          simp [hresolve, hvalue, htree, htoldOnDesk]

omit hprogram hcontext

variable {start : Session} (hopen : p.session ctx = .ok start)

include hopen

/-- A call on the desk is a call on the session. -/
theorem desk_call (hlater : start.Later s) (c : Call) :
    s.desk.call p ctx c = some ((s.call c).1, (s.call c).2.desk) := by
  obtain ⟨hprogram, hcontext, -⟩ := h.founded_of_later hopen hlater
  cases c with
  | resolve name =>
      rw [Desk.call, h.desk_resolve hprogram hcontext]
      rfl
  | satisfiedTraits =>
      rw [Desk.call, h.desk_satisfiedTraits hprogram hcontext]
      rfl
  | explain name =>
      have hafter := hlater.tail (.resolve name)
      obtain ⟨-, -, hmemo⟩ := h.founded_of_later hopen hafter
      rw [Desk.call, h.desk_explain hprogram hcontext hmemo.founded
        (h.recorded_of_later hopen hafter)]
      rfl

/-- On every desk lies what some session remembers. -/
theorem exists_later_of_reached {desk : Desk} (hreached : desk.Reached p ctx) :
    ∃ s, start.Later s ∧ desk = s.desk := by
  induction hreached with
  | start =>
      obtain ⟨-, rfl⟩ := Program.session_eq_ok_iff.1 hopen
      exact ⟨_, .refl, rfl⟩
  | call c _ hcall ih =>
      obtain ⟨s, hlater, rfl⟩ := ih
      rw [h.desk_call hopen hlater c] at hcall
      obtain ⟨-, rfl⟩ := Prod.mk.inj (Option.some.inj hcall)
      exact ⟨_, hlater.tail (s.step_call c), rfl⟩

end Schema.Compiled

end Rulebook
