import DispatchCoverage.Graph.Format
import DispatchCoverage.Graph.Namespaces
import DispatchCoverage.Text.Letter

/-!
# Parts of an address

An address ends in a name, which the longest run of name characters at its end
holds; what stands in front of the name is a namespace. Where a name begins
depends on the form: most forms let it begin with a digit, RDF/XML does not. If
the run has no character that a name may begin with, the address is split at the
first such character that it has. An address of nothing but name characters
cannot be split, and neither can one whose namespace would be empty.
-/

namespace DispatchCoverage

/-- The characters that no address in angle brackets and no property may
have. -/
def forbiddenInAddress : List Char :=
  [' ', '<', '>', '"', Char.ofNat 0x7b, Char.ofNat 0x7d, '|', '\\', '^', Char.ofNat 0x60]

/-- Whether a text has no character that is forbidden in an address. -/
def isPlainAddress (address : String) : Bool :=
  address.toList.all (fun c => !forbiddenInAddress.contains c)

/-- Whether a node is anything but an address that cannot be bracketed. -/
def Node.isSafe : Node → Bool
  | iri address => isPlainAddress address
  | _ => true

/-- Whether a form can express a graph. -/
def Graph.expressible (g : Graph) (format : Format) : Bool :=
  !format.bracketsAddresses ||
    g.triples.all (fun t => t.subject.isSafe && t.predicate.isSafe && t.object.isSafe)

namespace Address

/-- Whether a name in RDF/XML may begin with a character. -/
def startsStrictName (c : Char) : Bool := Text.isLetter c || c = '_'

/-- Whether a name in other forms may begin with a character. -/
def startsName (c : Char) : Bool := startsStrictName c || Text.isDecimalDigit c

/-- The signs that a name may have. -/
def nameSigns : List Char := ['-', '.', '%', '(', ')', Char.ofNat 0xB7, Char.ofNat 0x387]

/-- Whether a name may have a character. -/
def isNameChar (c : Char) : Bool := startsName c || Text.isMark c || nameSigns.contains c

/-- Whether a text is a name in RDF/XML. -/
def isStrictName (text : String) : Bool :=
  match text.toList with
  | [] => false
  | c :: cs => startsStrictName c && cs.all isNameChar

/-- The name at the end of an address, which begins with the first character of
the last run of name characters that a name may begin with, or else with the
first such character of the address. -/
def nameOf (starts : Char → Bool) (address : List Char) : List Char :=
  let run := (address.reverse.takeWhile isNameChar).reverse
  if run.any starts then run.dropWhile (fun c => !starts c)
  else address.dropWhile (fun c => !starts c)

/-- A name is the end of its address. -/
theorem nameOf_suffix (starts : Char → Bool) (address : List Char) :
    nameOf starts address <:+ address := by
  have hrun : (address.reverse.takeWhile isNameChar).reverse <:+ address := by
    simpa using List.reverse_suffix.2 (List.takeWhile_prefix (l := address.reverse) _)
  dsimp only [nameOf]
  split
  · exact (List.dropWhile_suffix _).trans hrun
  · exact List.dropWhile_suffix _

/-- An address split in front of its name. -/
def split? (starts : Char → Bool) (address : String) : Option (String × String) :=
  let cs := address.toList
  let name := nameOf starts cs
  if cs.all isNameChar || name.isEmpty || name.length = cs.length then none
  else some (String.ofList (cs.take (cs.length - name.length)), String.ofList name)

/-- Splitting an address loses nothing. -/
theorem append_split? {starts : Char → Bool} {address space name : String}
    (h : split? starts address = some (space, name)) : space ++ name = address := by
  simp only [split?] at h
  split at h
  · cases h
  · obtain ⟨rfl, rfl⟩ := Prod.mk.inj (Option.some.inj h)
    rw [← String.toList_inj]
    simp only [String.toList_append, String.toList_ofList]
    exact List.suffix_iff_eq_append.1 (nameOf_suffix starts address.toList)

end Address

end DispatchCoverage
