import TypeLineage.Fact

/-!
# Walks up the hierarchy

The two ways upwards from a type, over facts that are looked up one at a time: along superclasses,
and along superclasses with a search of the interfaces of each class on the way.

## The model

A look at the fact of a type is a function on some state, which it may change: it can count, fetch
the fact from elsewhere, and give another answer the next time. A walk keeps a list of what it has
met and turns back there, so it ends on cycles. It does not end if it meets new names for ever; it
has no result then.
-/

namespace TypeLineage.Engine

/-- Where a pass gets its facts from. -/
inductive Pass where
  /-- From the cache only. -/
  | cachedOnly
  /-- From the cache, or else from the reader. -/
  | full
  deriving DecidableEq, Repr

/-- What a pass has found out. -/
inductive Verdict where
  /-- A fact on the way declares the interface. -/
  | found
  /-- No fact on the way declares it, and none was missing. -/
  | absent
  /-- No fact declares it so far, but some were missing. -/
  | inconclusive
  deriving DecidableEq, Repr

/-- What a pass has met. -/
structure Met where
  /-- The classes. -/
  classes : List TypeName := []
  /-- The interfaces. -/
  interfaces : List TypeName := []
  /-- Whether every fact was there. What not even the reader knows is not missing. -/
  complete : Bool := true
  deriving DecidableEq, Repr

namespace Met

/-- Notes a class. -/
def addClass (met : Met) (name : TypeName) : Met :=
  { met with classes := name :: met.classes }

/-- Notes an interface. -/
def addInterface (met : Met) (name : TypeName) : Met :=
  { met with interfaces := name :: met.interfaces }

/-- Notes that a pass has not got a fact. -/
def lacking (met : Met) (pass : Pass) : Met :=
  { met with complete := met.complete && pass == .full }

/-- The verdict of a pass that has met this and found nothing. -/
def verdict (met : Met) : Verdict :=
  if met.complete then .absent else .inconclusive

/-! ### What each note changes -/

section Fields

variable (met : Met) (name : TypeName) (pass : Pass)

@[simp] theorem classes_addClass : (met.addClass name).classes = name :: met.classes := rfl

@[simp] theorem interfaces_addClass : (met.addClass name).interfaces = met.interfaces := rfl

@[simp] theorem complete_addClass : (met.addClass name).complete = met.complete := rfl

@[simp] theorem classes_addInterface : (met.addInterface name).classes = met.classes := rfl

@[simp] theorem interfaces_addInterface :
    (met.addInterface name).interfaces = name :: met.interfaces := rfl

@[simp] theorem complete_addInterface : (met.addInterface name).complete = met.complete := rfl

@[simp] theorem classes_lacking : (met.lacking pass).classes = met.classes := rfl

@[simp] theorem interfaces_lacking : (met.lacking pass).interfaces = met.interfaces := rfl

@[simp] theorem complete_lacking :
    (met.lacking pass).complete = (met.complete && pass == .full) := rfl

end Fields

/-- Nothing is found by what a pass has merely met. -/
theorem verdict_ne_found (met : Met) : met.verdict ≠ .found := by
  unfold verdict
  split <;> simp

@[simp] theorem verdict_eq_absent {met : Met} : met.verdict = .absent ↔ met.complete := by
  simp [verdict]

@[simp] theorem verdict_eq_inconclusive {met : Met} :
    met.verdict = .inconclusive ↔ met.complete = false := by
  simp [verdict]

end Met

/-- A way to look up the facts of types. -/
abbrev Look (σ : Type) : Type :=
  TypeName → σ → Option Fact × σ

namespace Look

variable {σ : Type}

/-- Looks up the interfaces of a list that have not been met yet. Those that extend others are put
on the stack, the last one on top. -/
def meetInterfaces (look : Look σ) (pass : Pass) :
    List TypeName → List Fact → Met → σ → List Fact × Met × σ
  | [], stack, met, state => (stack, met, state)
  | name :: rest, stack, met, state =>
    if name ∈ met.interfaces then
      meetInterfaces look pass rest stack met state
    else
      let met := met.addInterface name
      match look name state with
      | (none, state) => meetInterfaces look pass rest stack (met.lacking pass) state
      | (some fact, state) =>
        let stack := if fact.interfaces.isEmpty then stack else fact :: stack
        meetInterfaces look pass rest stack met state

/-- Searches the facts on a stack, and what they lead to, for one that declares the interface. -/
def searchInterfaces (look : Look σ) (pass : Pass) (target : TypeName) (stack : List Fact)
    (met : Met) (state : σ) : Option (Bool × Met × σ) :=
  match stack with
  | [] => some (false, met, state)
  | fact :: stack =>
    if fact.declares target then
      some (true, met, state)
    else
      let (stack, met, state) := meetInterfaces look pass fact.interfaces stack met state
      look |>.searchInterfaces pass target stack met state
partial_fixpoint

/-- One pass: searches a class, then its superclass, and so on. -/
def searchClasses (look : Look σ) (pass : Pass) (target : TypeName) (name? : Option TypeName)
    (met : Met) (state : σ) : Option (Verdict × σ) :=
  match name? with
  | none => some (met.verdict, state)
  | some name =>
    if name ∈ met.classes then
      some (met.verdict, state)
    else
      let met := met.addClass name
      match look name state with
      | (none, state) => some ((met.lacking pass).verdict, state)
      | (some fact, state) => do
        let (isFound, met, state) ← searchInterfaces look pass target [fact] met state
        if isFound then
          return (.found, state)
        else
          look |>.searchClasses pass target fact.superclass met state
partial_fixpoint

/-- Whether a class is met on the way upwards from a type. -/
def climb (look : Look σ) (target : TypeName) (name? : Option TypeName) (met : List TypeName)
    (state : σ) : Option (Bool × σ) :=
  match name? with
  | none => some (false, state)
  | some name =>
    if name = target then
      some (true, state)
    else if name ∈ met then
      some (false, state)
    else
      match look name state with
      | (none, state) => some (false, state)
      | (some fact, state) => look |>.climb target fact.superclass (name :: met) state
partial_fixpoint

end Look

end TypeLineage.Engine
