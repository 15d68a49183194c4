import DispatchCoverage.Value.Analysis

/-!
# Arguments by position and by name

An operation has parameters with names, some of which have a default. Its
arguments are given in order or by the names of the parameters; every parameter
without a default needs one argument, and no argument may be left over.
-/

namespace DispatchCoverage

/-- Arguments given by name. -/
abbrev NamedValues := List (String × Value)

namespace NamedValues

/-- The argument with a name. -/
def value? (named : NamedValues) (name : String) : Option Value :=
  (named.find? (fun entry => entry.1 == name)).map Prod.snd

/-- The arguments with other names. -/
def without (named : NamedValues) (name : String) : NamedValues :=
  named.filter (fun entry => entry.1 != name)

/-- The arguments that have one of some names, and those that have none of
them. -/
def partition (named : NamedValues) (names : List String) : NamedValues × NamedValues :=
  (named.filter (fun entry => names.contains entry.1),
    named.filter (fun entry => !names.contains entry.1))

end NamedValues

/-- A parameter of an operation. -/
structure Formal where
  /-- The name of the parameter. -/
  name : String
  /-- The argument that is used if none is given. -/
  default : Option Value := none

/-- The arguments of all parameters, in order. -/
def bindArguments : List Formal → List Value → NamedValues → Except Fault (List Value)
  | [], [], [] => .ok []
  | [], _, _ => .error .unsuitable
  | p :: ps, v :: vs, named =>
    if (named.value? p.name).isSome then .error .unsuitable
    else (bindArguments ps vs named).map (v :: ·)
  | p :: ps, [], named =>
    match named.value? p.name, p.default with
    | some v, _ => (bindArguments ps [] (named.without p.name)).map (v :: ·)
    | none, some v => (bindArguments ps [] named).map (v :: ·)
    | none, none => .error .unsuitable

/-- Every parameter gets exactly one argument. -/
theorem length_bindArguments {ps : List Formal} {args bound : List Value} {named : NamedValues}
    (h : bindArguments ps args named = .ok bound) : bound.length = ps.length := by
  have cons {r : Except Fault (List Value)} {v : Value} {n : Nat} {bound : List Value}
      (ih : ∀ {rest}, r = .ok rest → rest.length = n) (h : r.map (v :: ·) = .ok bound) :
      bound.length = n + 1 := by
    cases r with
    | error e => cases h
    | ok rest =>
      cases h
      simp [ih rfl]
  fun_induction bindArguments ps args named generalizing bound with
  | case1 =>
    cases h
    rfl
  | case2 => cases h
  | case3 => cases h
  | case4 p ps v vs named _ ih => exact cons ih h
  | case5 p ps named v _ ih => exact cons ih h
  | case6 p ps named v _ _ ih => exact cons ih h
  | case7 => cases h

namespace LooseSolver

/-- The solver that some implementations and options ask for. An unknown option
is noticed first. -/
def ofOptions (implementations : Value) (options : NamedValues) : Except Fault LooseSolver :=
  if options.all (fun entry => entry.1 == "max_rounds" || entry.1 == "strict") then
    ofValues implementations ((options.value? "max_rounds").getD .none)
      ((options.value? "strict").getD (.bool true))
  else .error .unsuitable

end LooseSolver

/-- The parts of an interface that no implementation accepts, where interface,
implementations and options are values of any kind. -/
def Value.checkCompleteness (interface implementations : Value) (options : NamedValues) :
    Except Fault SignatureSet := do
  let solver ← LooseSolver.ofOptions implementations options
  (solver.solve interface).result

end DispatchCoverage
