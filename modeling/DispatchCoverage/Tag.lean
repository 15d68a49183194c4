import DispatchCoverage.Ascending

/-!
# Type tags

A type tag is an opaque type identity: a name with a list of argument tags.
Two tags are the same when their names are the same and their arguments are
pairwise the same; no other relation holds between tags. Tags are ordered by
name and then by their arguments, and are written with brackets of the
caller's choice.
-/

namespace DispatchCoverage

/-- The name of a type: any text that is not empty. -/
structure Name where
  /-- The characters of the name. -/
  text : String
  /-- A name has at least one character. -/
  nonempty : text ≠ ""

namespace Name

/-- The name with a given text, if the text is not empty. -/
def ofString? (text : String) : Option Name :=
  if h : text = "" then none else some ⟨text, h⟩

/-- A name is determined by its text. -/
theorem text_injective {m n : Name} (h : m.text = n.text) : m = n := by
  cases m; cases n; cases h; rfl

/-- A text is a name exactly when it is not empty. -/
theorem ofString?_eq_some_iff {text : String} {n : Name} :
    ofString? text = some n ↔ n.text = text := by
  unfold ofString?
  split
  · rename_i h
    exact ⟨fun hn => (nomatch hn), fun hn => absurd (hn.trans h) n.nonempty⟩
  · exact ⟨fun hn => Option.some.inj hn ▸ rfl, fun hn => congrArg some (text_injective hn.symm)⟩

/-- Names are ordered by code points. -/
instance : Ord Name := ⟨compareOn text⟩

instance : Std.TransOrd Name := inferInstanceAs (Std.TransCmp (compareOn text))

instance : Std.LawfulEqOrd Name where
  toReflCmp := inferInstanceAs (Std.ReflCmp (compareOn text))
  eq_of_compare {m n} h :=
    text_injective (Std.compare_eq_iff_eq.1 (h : compare m.text n.text = .eq))

instance : DecidableEq Name := fun _ _ => decidable_of_iff _ Std.compare_eq_iff_eq

end Name

/-- An atomic or parametric type identity. -/
inductive Tag where
  /-- A name applied to argument tags; an atomic tag has none. -/
  | mk (name : Name) (arguments : List Tag)

namespace Tag

/-- The name that stands in front of the arguments. -/
def name : Tag → Name
  | mk name _ => name

/-- The argument tags, in order. -/
def arguments : Tag → List Tag
  | mk _ arguments => arguments

/-- The tag of a name without arguments. -/
def atom (name : Name) : Tag := mk name []

instance : Inhabited Tag := ⟨atom ⟨"_", by decide⟩⟩

/-- Whether a tag has no arguments. -/
def isAtom (t : Tag) : Bool := t.arguments.isEmpty

mutual

/-- Tags compare by name, then by arguments. -/
def order : Tag → Tag → Ordering
  | mk m ss, mk n ts => (compare m n).then (orderAll ss ts)

/-- Argument lists compare at the first argument that differs; a beginning of
a list precedes the list. -/
def orderAll : List Tag → List Tag → Ordering
  | [], [] => .eq
  | [], _ :: _ => .lt
  | _ :: _, [] => .gt
  | s :: ss, t :: ts => (order s t).then (orderAll ss ts)

end

instance : Ord Tag := ⟨order⟩

mutual

/-- Tags that compare as equal are equal. -/
theorem eq_of_order : ∀ {s t : Tag}, order s t = .eq → s = t
  | mk m ss, mk n ts, h => by
    obtain ⟨hn, ha⟩ := Ordering.then_eq_eq.1 (by simpa only [order] using h)
    rw [Std.compare_eq_iff_eq.1 hn, eq_of_orderAll ha]

/-- Argument lists that compare as equal are equal. -/
theorem eq_of_orderAll : ∀ {ss ts : List Tag}, orderAll ss ts = .eq → ss = ts
  | [], [], _ => rfl
  | [], _ :: _, h => by simp [orderAll] at h
  | _ :: _, [], h => by simp [orderAll] at h
  | s :: ss, t :: ts, h => by
    obtain ⟨hs, ht⟩ := Ordering.then_eq_eq.1 (by simpa only [orderAll] using h)
    rw [eq_of_order hs, eq_of_orderAll ht]

end

mutual

/-- A tag compares as equal with itself. -/
theorem order_self : ∀ t : Tag, order t t = .eq
  | mk n ts => by simp [order, orderAll_self ts]

/-- An argument list compares as equal with itself. -/
theorem orderAll_self : ∀ ts : List Tag, orderAll ts ts = .eq
  | [] => rfl
  | t :: ts => by simp [orderAll, order_self t, orderAll_self ts]

end

mutual

/-- Exchanging two tags reverses their order. -/
theorem order_swap : ∀ s t : Tag, order s t = (order t s).swap
  | mk m ss, mk n ts => by
    simp only [order, Ordering.swap_then]
    rw [← orderAll_swap ss ts, ← (Std.OrientedCmp.eq_swap : compare m n = (compare n m).swap)]

/-- Exchanging two argument lists reverses their order. -/
theorem orderAll_swap : ∀ ss ts : List Tag, orderAll ss ts = (orderAll ts ss).swap
  | [], [] => rfl
  | [], _ :: _ => rfl
  | _ :: _, [] => rfl
  | s :: ss, t :: ts => by
    simp only [orderAll, Ordering.swap_then]
    rw [← order_swap s t, ← orderAll_swap ss ts]

end

mutual

/-- The order on tags is transitive in its strict part. -/
theorem order_lt_trans : ∀ {s t u : Tag}, order s t = .lt → order t u = .lt → order s u = .lt
  | mk m ss, mk n ts, mk o us, hst, htu => by
    simp only [order, Ordering.then_eq_lt] at hst htu ⊢
    rcases hst with hmn | ⟨hmn, hss⟩ <;> rcases htu with hno | ⟨hno, hts⟩
    · exact .inl (Std.TransCmp.lt_trans hmn hno)
    · exact .inl (Std.compare_eq_iff_eq.1 hno ▸ hmn)
    · exact .inl (Std.compare_eq_iff_eq.1 hmn ▸ hno)
    · exact .inr ⟨Std.compare_eq_iff_eq.1 hmn ▸ hno, orderAll_lt_trans hss hts⟩

/-- The order on argument lists is transitive in its strict part. -/
theorem orderAll_lt_trans : ∀ {ss ts us : List Tag}, orderAll ss ts = .lt →
    orderAll ts us = .lt → orderAll ss us = .lt
  | [], [], _, h, _ => by simp [orderAll] at h
  | _ :: _, [], _, h, _ => by simp [orderAll] at h
  | _, _ :: _, [], _, h => by simp [orderAll] at h
  | [], _ :: _, _ :: _, _, _ => rfl
  | s :: ss, t :: ts, u :: us, hst, htu => by
    simp only [orderAll, Ordering.then_eq_lt] at hst htu ⊢
    rcases hst with hst | ⟨hst, hss⟩ <;> rcases htu with htu | ⟨htu, hts⟩
    · exact .inl (order_lt_trans hst htu)
    · exact .inl (eq_of_order htu ▸ hst)
    · exact .inl (eq_of_order hst ▸ htu)
    · exact .inr ⟨eq_of_order hst ▸ htu, orderAll_lt_trans hss hts⟩

end

instance : Std.TransOrd Tag where
  eq_swap {s t} := order_swap s t
  isLE_trans {s t u} hst htu := by
    rcases Ordering.isLE_iff_eq_lt_or_eq_eq.1 hst with hst | hst
    · rcases Ordering.isLE_iff_eq_lt_or_eq_eq.1 htu with htu | htu
      · exact Ordering.isLE_iff_eq_lt_or_eq_eq.2 (.inl (order_lt_trans hst htu))
      · exact eq_of_order htu ▸ Ordering.isLE_iff_eq_lt_or_eq_eq.2 (.inl hst)
    · exact eq_of_order hst ▸ htu

instance : Std.LawfulEqOrd Tag where
  compare_self {t} := order_self t
  eq_of_compare := eq_of_order

instance : DecidableEq Tag := fun _ _ => decidable_of_iff _ Std.compare_eq_iff_eq

mutual

/-- The greatest depth of arguments within arguments. -/
def nesting : Tag → Nat
  | mk _ ts => nestingAll ts

/-- One more than the greatest depth among argument tags, if there are any. -/
def nestingAll : List Tag → Nat
  | [] => 0
  | t :: ts => max (nesting t + 1) (nestingAll ts)

end

mutual

/-- Whether every name in a tag passes a test, at every depth. -/
def allNames (p : Name → Bool) : Tag → Bool
  | mk n ts => p n && allNamesOf p ts

/-- Whether every name in several tags passes a test, at every depth. -/
def allNamesOf (p : Name → Bool) : List Tag → Bool
  | [] => true
  | t :: ts => allNames p t && allNamesOf p ts

end

/-- The names in several tags are the names in each of them. -/
theorem allNamesOf_eq_all (p : Name → Bool) (ts : List Tag) :
    allNamesOf p ts = ts.all (allNames p) := by
  induction ts with
  | nil => rfl
  | cons t ts ih => simp [allNamesOf, ih]

/-- The names in a tag are its own and those in its arguments. -/
theorem allNames_mk (p : Name → Bool) (n : Name) (ts : List Tag) :
    allNames p (mk n ts) = (p n && ts.all (allNames p)) := by
  rw [allNames, allNamesOf_eq_all]

end Tag

/-- The marks between and around the parts of a written type. -/
structure TextStyle where
  /-- The mark between arguments and between parameters. -/
  sep : String := ", "
  /-- The opening bracket. -/
  lparen : String := "("
  /-- The closing bracket. -/
  rparen : String := ")"
  /-- The mark between alternatives. -/
  alt : String := " | "

namespace Tag

mutual

/-- The written form of a tag: its name, and its arguments in brackets. -/
def text (style : TextStyle) : Tag → String
  | mk n [] => n.text
  | mk n (t :: ts) =>
    n.text ++ style.lparen ++ style.sep.intercalate (text style t :: texts style ts)
      ++ style.rparen

/-- The written forms of several tags, in order. -/
def texts (style : TextStyle) : List Tag → List String
  | [] => []
  | t :: ts => text style t :: texts style ts

end

/-- Several tags are written one by one. -/
theorem texts_eq_map (style : TextStyle) (ts : List Tag) :
    texts style ts = ts.map (text style) := by
  induction ts with
  | nil => rfl
  | cons t ts ih => simp [texts, ih]

/-- The written form of a tag in the default style. -/
instance : ToString Tag := ⟨text {}⟩

/-- The text that refuses to change a tag. -/
def immutableMessage (t : Tag) : String := s!"Type tag {t} is immutable."

/-- Why a tag could not be applied to arguments. -/
structure AlreadyApplied where
  /-- The tag that has arguments already. -/
  tag : Tag

/-- The text that reports an application of a tag that has arguments. -/
def AlreadyApplied.message (e : AlreadyApplied) : String :=
  s!"Cannot apply tag {e.tag}; it already has arguments."

/-- Apply an atomic tag to arguments, so that it serves as the constructor of
its parametric forms. -/
def apply (t : Tag) (arguments : List Tag) : Except AlreadyApplied Tag :=
  if t.isAtom then .ok (mk t.name arguments) else .error ⟨t⟩

end Tag

end DispatchCoverage
