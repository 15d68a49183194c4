import DispatchCoverage.Value.Operators

/-!
# Written forms in a loosely typed style

The marks of a written form may be given as values of any kind. A mark between
parts has to be a text only where it is needed; brackets of any kind stand
around the arguments of a tag, but those of a signature have to be texts.
-/

namespace DispatchCoverage

/-- Marks between and around the parts of a written type, of any kind. -/
structure LooseStyle where
  /-- The mark between arguments and between parameters. -/
  sep : Value
  /-- The opening bracket. -/
  lparen : Value
  /-- The closing bracket. -/
  rparen : Value
  /-- The mark between alternatives. -/
  alt : Value

namespace LooseStyle

/-- The marks as they are written. -/
def written (style : LooseStyle) : TextStyle :=
  ⟨style.sep.toText, style.lparen.toText, style.rparen.toText, style.alt.toText⟩

/-- Make sure that a mark can stand between parts. -/
def checkMark : Value → Except Fault Unit
  | .str _ => .ok ()
  | _ => .error .noOperation

/-- Make sure that a mark can stand in front of or behind a text. -/
def checkBracket : Value → Except Fault Unit
  | .str _ => .ok ()
  | _ => .error .unsuitable

/-- Make sure that a tag can be written. -/
def checkTag (style : LooseStyle) (t : Tag) : Except Fault Unit :=
  if t.isAtom then .ok () else checkMark style.sep

/-- Make sure that alternatives can be written. -/
def checkTags (style : LooseStyle) (ts : List Tag) : Except Fault Unit := do
  if !ts.isEmpty then checkMark style.alt
  ts.forM style.checkTag

/-- Make sure that a signature can be written. -/
def checkSignature (style : LooseStyle) (s : Signature) : Except Fault Unit := do
  checkMark style.sep
  s.parameters.forM fun p => style.checkTags p.toList
  checkBracket style.lparen
  checkBracket style.rparen

/-- The written form of a tag, an alternation, a set or a signature. -/
def textOf (style : LooseStyle) : Value → Except Fault String
  | .tag t => (style.checkTag t).map fun _ => t.text style.written
  | .union u => (style.checkTags u.members).map fun _ => u.text style.written
  | .set s => (style.checkTags s.toList).map fun _ => TypeSet.text style.written s
  | .signature s => (style.checkSignature s).map fun _ => s.text style.written
  | _ => .error .noOperation

/-- The written forms of what a value holds, with a mark between them. -/
def textOfItems (style : LooseStyle) (mark v : Value) : Except Fault String := do
  checkMark mark
  let texts ← (← v.items).mapM style.textOf
  return mark.toText.intercalate texts

end LooseStyle

/-- The written form of a tag, an alternation, a set or a signature in a style
of any marks. -/
def Value.styledText (style : LooseStyle) : Value → Except Fault Value
  | alteredUnion members =>
    if members.truth then (style.textOfItems style.alt members).map str else .ok (str "⊥")
  | alteredSignature parameters _ => do
    let inner ← style.textOfItems style.sep parameters
    LooseStyle.checkBracket style.lparen
    LooseStyle.checkBracket style.rparen
    return str (style.lparen.toText ++ inner ++ style.rparen.toText)
  | v => (style.textOf v).map str

end DispatchCoverage
