import DispatchCoverage.Surface.Declaration

/-!
# Text reports

The outcome of checks is reported one declaration after another: a header with
name and interface that says whether the interface is complete, and behind it
the leaves, one per line in the order of their written forms.
-/

namespace DispatchCoverage.Report

/-- The name and the interface of a declaration. -/
def label (d : Declaration) : String :=
  match d.name with
  | some n => s!"{n.text} {d.interface}"
  | none => toString d.interface

/-- The lines on one declaration. -/
def entry (d : Declaration) (leaves : SignatureSet) : List String :=
  if leaves.isEmpty then [label d ++ ": complete"]
  else
    (label d ++ ": incomplete") ::
      (TypeSet.sortTexts (leaves.toList.map (Signature.text {}))).map ("\t" ++ ·)

/-- The report on some declarations; without any it is empty. -/
def text (results : List (Declaration × SignatureSet)) : String :=
  String.join ((results.flatMap fun (d, leaves) => entry d leaves).map (· ++ "\n"))

end DispatchCoverage.Report
