/-
# The meaning of expressions

The measure for everything that evaluates: an expression is read as it stands,
part by part, and references are answered by name. Compiled code means what its
expression means. The reading is given for any monad, so that plain evaluation,
evaluation inside a session and evaluation on a budget are readings of the same
kind; what two of them have in common is proved once, along a coupling of the
two monads.
-/

import Rulebook.Program.Compile
import Rulebook.Proofs.Occurrence

namespace Rulebook

/-! ## Reading an expression -/

namespace Expr

section Meaning

variable {m : Type → Type} [Monad m] [MonadExceptOf Fault m]
variable (registry : Registry) (ctx : Context) (ask : String → m Value)

/-- What the context has under a key. -/
def readField (name : String) : m Value :=
  match ctx.find? name with
  | some value => pure value
  | none => throw (.missingField name ctx.keys)

/-- The registered function of a name, applied. A fault of the call tells what the function
reported, or the text with which it broke off; if it broke off without one, that it did. -/
def applyFunction (function : String) (args : List Value) : m Value :=
  match registry.find? function with
  | none => throw (.unknownFunction function)
  | some f =>
    match f.body args with
    | .ok value => pure value
    | .error (.reported message) => throw (.call function message)
    | .error (.crashed (some text)) => throw (.call function text)
    | .error (.crashed none) => throw (.call function "function panicked")

mutual

/-- The meaning of an expression, where `ask` answers for names. -/
def meaning : Expr → m Value
  | .literal value => pure value
  | .field name => readField ctx name
  | .binding name => ask name
  | .list items => do return .list (← meaningOfList items)
  | .call function args => do applyFunction registry function (← meaningOfList args)
  | .cascade cases none => do return (← meaningOfCases cases).getD .null
  | .cascade cases (some e) => do
    match ← meaningOfCases cases with
    | some value => return value
    | none => meaning e

/-- The meanings of several expressions, from left to right up to the first fault. -/
def meaningOfList : List Expr → m (List Value)
  | [] => pure []
  | e :: rest => do return (← meaning e) :: (← meaningOfList rest)

/-- The meaning of the result of the first case whose condition is true, if any is. -/
def meaningOfCases : List Case → m (Option Value)
  | [] => pure none
  | ⟨condition, result⟩ :: rest => do
    if (← meaning condition).isTruthy then return some (← meaning result)
    else meaningOfCases rest

end

section Nodes

variable {registry ctx}

theorem readField_of_some {name : String} {v : Value} (h : ctx.find? name = some v) :
    (readField ctx name : m Value) = pure v := by
  rw [readField, h]

theorem readField_of_none {name : String} (h : ctx.find? name = none) :
    (readField ctx name : m Value) = throw (.missingField name ctx.keys) := by
  rw [readField, h]

theorem applyFunction_of_ok {function : String} {f : HostFunction}
    (hf : registry.find? function = some f) {args : List Value} {v : Value}
    (hv : f.body args = .ok v) : (applyFunction registry function args : m Value) = pure v := by
  simp only [applyFunction, hf, hv]

theorem applyFunction_of_error {function : String} {f : HostFunction}
    (hf : registry.find? function = some f) {args : List Value} {failure : Failure}
    (hfailure : f.body args = .error failure) :
    (applyFunction registry function args : m Value) =
      throw (.call function failure.message) := by
  rcases failure with message | (_ | text) <;>
    simp only [applyFunction, hf, hfailure, Failure.message]

theorem applyFunction_of_none {function : String} (h : registry.find? function = none)
    (args : List Value) :
    (applyFunction registry function args : m Value) = throw (.unknownFunction function) := by
  rw [applyFunction, h]

end Nodes

theorem meaningOfCases_cons (c : Case) (rest : List Case) :
    meaningOfCases registry ctx ask (c :: rest) = (do
      if (← meaning registry ctx ask c.condition).isTruthy then
        return some (← meaning registry ctx ask c.result)
      else meaningOfCases registry ctx ask rest) := by
  cases c
  rfl

end Meaning

end Expr

/-! ## Compiled code -/

namespace Code

variable {m : Type → Type} [Monad m] [MonadExceptOf Fault m]

/-- Answers for names where slots answer: by the last slot of the name. -/
def bySlot (order : List String) (ask : Nat → m Value) (name : String) : m Value :=
  match lastPosition? name order with
  | some index => ask index
  | none => throw (.unresolvedBinding name)

omit [Monad m] in
theorem bySlot_of_some {order : List String} {ask : Nat → m Value} {name : String} {index : Nat}
    (h : lastPosition? name order = some index) : bySlot order ask name = ask index := by
  rw [bySlot, h]

omit [Monad m] in
theorem bySlot_of_none {order : List String} {ask : Nat → m Value} {name : String}
    (h : lastPosition? name order = none) :
    bySlot order ask name = throw (.unresolvedBinding name) := by
  rw [bySlot, h]

variable (registry : Registry) (order : List String) (ctx : Context) (ask : Nat → m Value)

mutual

/-- Code means what its expression means. -/
theorem eval_ofExpr : ∀ e : Expr,
    (ofExpr registry order e).eval ctx ask = e.meaning registry ctx (bySlot order ask)
  | .literal value => rfl
  | .field name => rfl
  | .binding name => by
    rw [ofExpr, Expr.meaning, bySlot]
    cases lastPosition? name order <;> rfl
  | .list items => by
    rw [ofExpr, eval, Expr.meaning, evalList_ofList items]
  | .call function args => by
    rw [ofExpr, Expr.meaning, ← evalList_ofList args]
    cases hfind : registry.find? function with
    | none => simp [eval, Expr.applyFunction, hfind]
    | some f =>
        simp only [Option.map_some, eval]
        congr 1
        funext args
        cases hbody : f.body args with
        | ok v =>
            rw [Expr.applyFunction_of_ok hfind hbody, invoke, hbody]
            rfl
        | error failure =>
            rw [Expr.applyFunction_of_error hfind hbody, invoke, hbody]
            rfl
  | .cascade cases none => by
    rw [ofExpr, eval, Expr.meaning, evalArms_ofCases cases]
    congr 1
    funext value
    cases value <;> rfl
  | .cascade cases (some e) => by
    rw [ofExpr, eval, evalArms_ofCases cases, eval_ofExpr e]
    rfl

theorem evalList_ofList : ∀ es : List Expr,
    evalList ctx ask (ofList registry order es) =
      Expr.meaningOfList registry ctx (bySlot order ask) es
  | [] => rfl
  | e :: rest => by
    rw [ofList, evalList, Expr.meaningOfList, eval_ofExpr e, evalList_ofList rest]

theorem evalArms_ofCases : ∀ cases : List Case,
    evalArms ctx ask (ofCases registry order cases) =
      Expr.meaningOfCases registry ctx (bySlot order ask) cases
  | [] => rfl
  | ⟨condition, result⟩ :: rest => by
    rw [ofCases, evalArms, Expr.meaningOfCases, eval_ofExpr condition, eval_ofExpr result,
      evalArms_ofCases rest]

end

end Code

/-! ## Couplings -/

/-- The fault of coming back to where evaluation is, which no expression has of its own. -/
def Fault.isCycle : Fault → Bool
  | .cycle _ => true
  | _ => false

theorem Fault.isCycle_iff {fault : Fault} : fault.isCycle = true ↔ ∃ path, fault = .cycle path := by
  cases fault <;> simp [isCycle]

/-- The faults that an expression can have of its own, over a context: a field is missing
only if the context lacks it, and the keys told are those of the context. -/
inductive Fault.OwnOver (ctx : Context) : Fault → Prop
  | missingField {field : String} : ctx.find? field = none →
      OwnOver ctx (.missingField field ctx.keys)
  | unresolvedBinding (name : String) : OwnOver ctx (.unresolvedBinding name)
  | unknownFunction (function : String) : OwnOver ctx (.unknownFunction function)
  | call (function message : String) : OwnOver ctx (.call function message)

theorem Fault.OwnOver.isCycle_eq_false {ctx : Context} {fault : Fault} (h : fault.OwnOver ctx) :
    fault.isCycle = false := by
  cases h <;> rfl

/-- A relation between the computations of two monads that returning and sequencing
respect. -/
structure Coupling (m n : Type → Type) [Monad m] [Monad n] where
  Rel : {α : Type} → m α → n α → Prop
  pure : ∀ {α : Type} (a : α), Rel (Pure.pure a) (Pure.pure a)
  bind : ∀ {α β : Type} {x : m α} {y : n α} {f : α → m β} {g : α → n β},
    Rel x y → (∀ a, Rel (f a) (g a)) → Rel (x >>= f) (y >>= g)

namespace Coupling

variable {m n : Type → Type} [Monad m] [Monad n] (C : Coupling m n)

/-- A fold whose steps are coupled is coupled. -/
theorem foldlM {α β : Type} {f : β → α → m β} {g : β → α → n β} {xs : List α}
    (h : ∀ b, ∀ x ∈ xs, C.Rel (f b x) (g b x)) (b : β) :
    C.Rel (xs.foldlM f b) (xs.foldlM g b) := by
  induction xs generalizing b with
  | nil => exact C.pure b
  | cons x rest ih =>
      rw [List.foldlM_cons, List.foldlM_cons]
      exact C.bind (h b x List.mem_cons_self) fun b' =>
        ih (fun b y hy => h b y (List.mem_cons_of_mem _ hy)) b'

/-- A traversal whose steps are coupled is coupled. -/
theorem mapM [LawfulMonad m] [LawfulMonad n] {α β : Type} {f : α → m β} {g : α → n β}
    {xs : List α} (h : ∀ x ∈ xs, C.Rel (f x) (g x)) : C.Rel (xs.mapM f) (xs.mapM g) := by
  induction xs with
  | nil =>
      rw [List.mapM_nil, List.mapM_nil]
      exact C.pure []
  | cons x rest ih =>
      rw [List.mapM_cons, List.mapM_cons]
      exact C.bind (h x List.mem_cons_self) fun b =>
        C.bind (ih fun y hy => h y (List.mem_cons_of_mem _ hy)) fun bs => C.pure (b :: bs)

variable [MonadExceptOf Fault m] [MonadExceptOf Fault n]
variable {registry : Registry} {ctx ctx' : Context} {ask : String → m Value}
  {ask' : String → n Value}

/-- A field is read with a coupled outcome if a missing one is. -/
theorem readField {field : String}
    (hmissing : ctx.find? field = none →
      C.Rel (throw (.missingField field ctx.keys) : m Value)
        (throw (.missingField field ctx.keys) : n Value)) :
    C.Rel (Expr.readField ctx field) (Expr.readField ctx field) := by
  cases hfind : ctx.find? field with
  | some v =>
      rw [Expr.readField_of_some hfind, Expr.readField_of_some hfind]
      exact C.pure v
  | none =>
      rw [Expr.readField_of_none hfind, Expr.readField_of_none hfind]
      exact hmissing hfind

/-- A registered function is applied with a coupled outcome if a failing one is. -/
theorem applyFunction {function : String} {f : HostFunction}
    (hf : registry.find? function = some f)
    (hfailing : ∀ message, C.Rel (throw (.call function message) : m Value)
      (throw (.call function message) : n Value)) (args : List Value) :
    C.Rel (Expr.applyFunction registry function args)
      (Expr.applyFunction registry function args) := by
  cases hbody : f.body args with
  | ok v =>
      rw [Expr.applyFunction_of_ok hf hbody, Expr.applyFunction_of_ok hf hbody]
      exact C.pure v
  | error failure =>
      rw [Expr.applyFunction_of_error hf hbody, Expr.applyFunction_of_error hf hbody]
      exact hfailing failure.message

/-- Two readings of a node are coupled, the nodes below it left out. -/
def Agree (C : Coupling m n) (registry : Registry) (ctx ctx' : Context)
    (ask : String → m Value) (ask' : String → n Value) : Expr → Prop
  | .field name => C.Rel (Expr.readField ctx name) (Expr.readField ctx' name)
  | .binding name => C.Rel (ask name) (ask' name)
  | .call function _ => ∀ args, C.Rel (Expr.applyFunction registry function args)
      (Expr.applyFunction registry function args)
  | _ => True

mutual

/-- Two readings of an expression are coupled if they are at every node. -/
theorem meaning : ∀ e : Expr, (∀ x ∈ e.nodes, C.Agree registry ctx ctx' ask ask' x) →
    C.Rel (e.meaning registry ctx ask) (e.meaning registry ctx' ask')
  | .literal value, _ => C.pure value
  | .field name, h => h (.field name) (Expr.self_mem_nodes _)
  | .binding name, h => h (.binding name) (Expr.self_mem_nodes _)
  | .list items, h => by
    rw [Expr.meaning, Expr.meaning]
    exact C.bind (meaningOfList items fun x hx => h x (by simp [Expr.nodes, hx]))
      fun values => C.pure _
  | .call function args, h => by
    rw [Expr.meaning, Expr.meaning]
    exact C.bind (meaningOfList args fun x hx => h x (by simp [Expr.nodes, hx]))
      (h _ (Expr.self_mem_nodes _))
  | .cascade cases none, h => by
    rw [Expr.meaning, Expr.meaning]
    exact C.bind (meaningOfCases cases fun x hx => h x (by simp [Expr.nodes, hx]))
      fun value => C.pure _
  | .cascade cases (some e), h => by
    rw [Expr.meaning, Expr.meaning]
    refine C.bind (meaningOfCases cases fun x hx => h x (by simp [Expr.nodes, hx])) ?_
    intro value
    cases value with
    | some value => exact C.pure value
    | none => exact meaning e fun x hx => h x (by simp [Expr.nodes, hx])

theorem meaningOfList : ∀ es : List Expr,
    (∀ x ∈ Expr.nodesOfList es, C.Agree registry ctx ctx' ask ask' x) →
    C.Rel (Expr.meaningOfList registry ctx ask es) (Expr.meaningOfList registry ctx' ask' es)
  | [], _ => C.pure []
  | e :: rest, h => by
    rw [Expr.meaningOfList, Expr.meaningOfList]
    refine C.bind (meaning e fun x hx => h x (by simp [Expr.nodesOfList, hx])) fun value => ?_
    exact C.bind (meaningOfList rest fun x hx => h x (by simp [Expr.nodesOfList, hx]))
      fun values => C.pure _

theorem meaningOfCases : ∀ cases : List Case,
    (∀ x ∈ Expr.nodesOfCases cases, C.Agree registry ctx ctx' ask ask' x) →
    C.Rel (Expr.meaningOfCases registry ctx ask cases)
      (Expr.meaningOfCases registry ctx' ask' cases)
  | [], _ => C.pure none
  | ⟨condition, result⟩ :: rest, h => by
    rw [Expr.meaningOfCases, Expr.meaningOfCases]
    refine C.bind (meaning condition fun x hx => h x (by simp [Expr.nodesOfCases, hx])) ?_
    intro verdict
    by_cases hverdict : verdict.isTruthy = true
    · simp only [hverdict, if_true]
      exact C.bind (meaning result fun x hx => h x (by simp [Expr.nodesOfCases, hx]))
        fun value => C.pure _
    · simp only [hverdict, Bool.false_eq_true, if_false]
      exact meaningOfCases rest fun x hx => h x (by simp [Expr.nodesOfCases, hx])

end

/-- Two readings of an expression are coupled if the answers for the names in it are, as
long as every fault that an expression can have is coupled with itself. -/
theorem meaning_of_ask
    (hthrow : ∀ fault : Fault, fault.OwnOver ctx →
      C.Rel (throw fault : m Value) (throw fault : n Value))
    {e : Expr} (hask : ∀ target, .binding target ∈ e.nodes → C.Rel (ask target) (ask' target)) :
    C.Rel (e.meaning registry ctx ask) (e.meaning registry ctx ask') := by
  apply C.meaning
  intro x hx
  cases x with
  | field field => exact C.readField fun hmissing => hthrow _ (.missingField hmissing)
  | binding target => exact hask target hx
  | call function args =>
      intro values
      cases hf : registry.find? function with
      | none =>
          rw [Expr.applyFunction_of_none hf, Expr.applyFunction_of_none hf]
          exact hthrow _ (.unknownFunction function)
      | some f => exact C.applyFunction hf (fun message => hthrow _ (.call function message)) values
  | _ => trivial

/-- Every monad is coupled with itself by equality. -/
def eq (m : Type → Type) [Monad m] : Coupling m m where
  Rel := Eq
  pure _ := rfl
  bind hx hf := by
    rw [hx]
    congr 1
    funext a
    exact hf a

end Coupling

/-- Only the answers for the names that an expression refers to matter. -/
theorem Expr.meaning_congr {m : Type → Type} [Monad m] [MonadExceptOf Fault m]
    {registry : Registry} {ctx : Context} {ask ask' : String → m Value} {e : Expr}
    (h : ∀ name, .binding name ∈ e.nodes → ask name = ask' name) :
    e.meaning registry ctx ask = e.meaning registry ctx ask' := by
  apply (Coupling.eq m).meaning
  intro x hx
  cases x with
  | binding name => exact h name hx
  | field name => exact Eq.refl _
  | call function args => exact fun _ => Eq.refl _
  | _ => trivial

/-! ## The meaning of a name -/

namespace Schema

variable (schema : Schema) (registry : Registry) (ctx : Context)

/-- The meaning of a name is that of its expression. Each reference takes one from the
budget, and there is no answer when the budget is used up. -/
def meaning : Nat → String → ExceptT Fault Option Value
  | 0, _ => (none : Option (Except Fault Value))
  | budget + 1, name =>
    match (schema.find? name).bind (·.expression) with
    | some e => e.meaning registry ctx (meaning budget)
    | none => throw (.unresolvedBinding name)

variable {schema registry ctx}

/-- An answer stays the same on a larger budget. -/
def moreBudget : Coupling (ExceptT Fault Option) (ExceptT Fault Option) where
  Rel x y := ∀ r, x.run = some r → y.run = some r
  pure _ _ h := h
  bind {_ _ x y f g} hx hf r h := by
    cases hrun : x.run with
    | none => simp [ExceptT.run_bind, hrun] at h
    | some outcome =>
      rw [ExceptT.run_bind, hrun] at h
      rw [ExceptT.run_bind, hx outcome hrun]
      cases outcome with
      | error fault => exact h
      | ok a => exact hf a r h

theorem meaning_mono {budget more : Nat} (hle : budget ≤ more) {name : String}
    {r : Except Fault Value} (h : schema.meaning registry ctx budget name = some r) :
    schema.meaning registry ctx more name = some r := by
  induction budget generalizing more name r with
  | zero => cases h
  | succ budget ih =>
      obtain ⟨more, rfl⟩ : ∃ k, more = k + 1 := ⟨more - 1, by omega⟩
      rw [meaning] at h ⊢
      split
      · rename_i e he
        simp only [he] at h
        refine moreBudget.meaning e (fun x _ => ?_) r h
        cases x with
        | binding target => exact fun r hr => ih (by omega) hr
        | field name => exact fun r hr => hr
        | call function args => exact fun _ r hr => hr
        | _ => trivial
      · rename_i hnone
        simpa only [hnone] using h

end Schema

end Rulebook
