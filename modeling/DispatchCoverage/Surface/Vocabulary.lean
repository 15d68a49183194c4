import DispatchCoverage.Value

/-!
# Vocabularies

A vocabulary registers the names that tags may be written with. A closed
vocabulary accepts the registered names only; an open one accepts any name.
Only tags without arguments can be registered, so a registered name always
stands for the atomic tag of that name.
-/

namespace DispatchCoverage

/-- The names that tags may be written with. -/
structure Vocabulary where
  /-- The registered names, in the order of registration. -/
  names : List Name := []
  /-- Whether only registered names are accepted. -/
  closed : Bool := false

/-- A tag with arguments was to be registered. -/
structure NotAtomic where
  /-- The tag in question. -/
  tag : Tag

/-- The text that refuses a tag with arguments. -/
def NotAtomic.message (e : NotAtomic) : String :=
  s!"Only nullary tags can be added, not {e.tag}"

/-- Why a name could not be looked up. -/
inductive LookupError where
  /-- The vocabulary is closed and the name is not registered. -/
  | undefined (token : String)
  /-- The text is no name. -/
  | nameless (cause : TypeFault)
  /-- The value cannot be a key. -/
  | notAKey

/-- The values of a scope, where a later binding of a key takes the place of an
earlier one. -/
def lastBindings {α : Type} : List (String × α) → List (String × α)
  | [] => []
  | (key, value) :: rest =>
    let later := lastBindings rest
    match later.find? (fun b => b.1 == key) with
    | some (_, value') => (key, value') :: later.filter (fun b => b.1 != key)
    | none => (key, value) :: later

namespace Vocabulary

/-- Register a name, unless it is registered already. -/
def register (v : Vocabulary) (n : Name) : Vocabulary :=
  if v.names.contains n then v else { v with names := v.names ++ [n] }

/-- Register an atomic tag. -/
def add (v : Vocabulary) (t : Tag) : Except NotAtomic Vocabulary :=
  if t.isAtom then .ok (v.register t.name) else .error ⟨t⟩

/-- Register the atomic tags among some values and pass over all others. -/
def addValues (v : Vocabulary) : List Value → Vocabulary
  | [] => v
  | .tag t :: rest => addValues (if t.isAtom then v.register t.name else v) rest
  | _ :: rest => addValues v rest

/-- Register the atomic tags of a scope. The keys of the scope do not matter,
except that a later binding takes the place of an earlier one. -/
def addScope (v : Vocabulary) (scope : List (String × Value)) : Vocabulary :=
  v.addValues ((lastBindings scope).map Prod.snd)

/-- The vocabulary of a scope. Unless stated otherwise it is closed exactly if
the scope has a binding. -/
def ofScope (scope : List (String × Value)) (closed : Option Bool := none) : Vocabulary :=
  let v := addScope {} scope
  { v with closed := closed.getD (!scope.isEmpty) }

/-- The registered tags, in the order of registration. -/
def tags (v : Vocabulary) : List Tag := v.names.map Tag.atom

/-- Whether a text is a registered name. -/
def hasText (v : Vocabulary) (text : String) : Bool := v.names.any (fun n => n.text == text)

/-- Whether the name of a tag and those of all its arguments are registered. -/
def hasTag (v : Vocabulary) (t : Tag) : Bool := t.allNames v.names.contains

/-- Whether a value is a registered name or a tag made of registered names. -/
def holds (v : Vocabulary) : Value → Bool
  | .str s => v.hasText s
  | .tag t => v.hasTag t
  | _ => false

/-- The name that a token stands for: any name in an open vocabulary, a
registered one in a closed vocabulary. -/
def name? (v : Vocabulary) (token : String) : Option Name :=
  if v.closed && !v.hasText token then none else Name.ofString? token

/-- A token stands for the name of the same text, if that is registered or the
vocabulary is open. -/
theorem name?_eq_some_iff {v : Vocabulary} {token : String} {n : Name} :
    v.name? token = some n ↔ n.text = token ∧ (v.closed = true → n ∈ v.names) := by
  have hmem : v.hasText n.text = true ↔ n ∈ v.names := by
    simp only [hasText, List.any_eq_true, beq_iff_eq]
    exact ⟨fun ⟨m, hm, h⟩ => Name.text_injective h ▸ hm, fun h => ⟨n, h, rfl⟩⟩
  unfold name?
  split
  · rename_i h
    simp only [Bool.and_eq_true, Bool.not_eq_true', ← Bool.not_eq_true] at h
    refine ⟨fun hn => (nomatch hn), fun ⟨ht, hn⟩ => absurd (hmem.2 (hn h.1)) (ht ▸ h.2)⟩
  · rename_i h
    rw [Name.ofString?_eq_some_iff]
    refine ⟨fun ht => ⟨ht, fun hc => hmem.1 ?_⟩, fun ht => ht.1⟩
    subst ht
    simpa [hc] using h

/-- The atomic tag that a text stands for. -/
def lookup (v : Vocabulary) (token : String) : Except LookupError Tag :=
  if v.closed && !v.hasText token then .error (.undefined token)
  else
    match Name.ofString? token with
    | some n => .ok (Tag.atom n)
    | none => .error (.nameless (.notAName (.str token)))

/-- The atomic tag that a value of any kind stands for, which has to be a text:
no other value is registered or a name. -/
def lookupValue (v : Vocabulary) : Value → Except LookupError Tag
  | .str s => v.lookup s
  | x =>
    if !x.isKey then .error .notAKey
    else if v.closed then .error (.undefined x.toText)
    else .error (.nameless (.notAName x))

end Vocabulary

end DispatchCoverage
