import DispatchCoverage.Proofs.WrittenForm
import DispatchCoverage.Signature.Parts

/-!
# Closed vocabularies

A closed vocabulary decides which texts are read, but not what they stand for.
It reads a text exactly if the open vocabulary without names reads it and all
tags in the value are made of registered names, and then it reads the same
value. So names that are registered later change nothing about a text that is
read already.
-/

namespace DispatchCoverage

namespace Tag

/-- The names in a tag that occurs in another one pass each test that the names
in the other one pass. -/
theorem allNames_of_mem_parts {p : Name → Bool} {u : Tag} :
    ∀ t : Tag, u ∈ t.parts → t.allNames p = true → u.allNames p = true
  | .mk n ts, hu, ht => by
    rcases mem_parts_mk.1 hu with rfl | ⟨t, hmem, hut⟩
    · exact ht
    · rw [allNames_mk, Bool.and_eq_true, List.all_eq_true] at ht
      exact allNames_of_mem_parts t hut (ht.2 t hmem)
termination_by t => sizeOf t

/-- All names in a tag pass a test exactly if those in each tag that occurs in it
do. -/
theorem allNames_iff_parts {p : Name → Bool} {t : Tag} :
    t.allNames p = true ↔ ∀ u ∈ t.parts, u.allNames p = true :=
  ⟨fun ht _ hu => allNames_of_mem_parts t hu ht, fun h => h t t.mem_parts_self⟩

end Tag

/-- All names in a set pass a test exactly if those in each tag that occurs in it
do. -/
theorem TypeSet.allNames_iff_parts {p : Name → Bool} {s : TypeSet} :
    TypeSet.allNames p s = true ↔ ∀ u ∈ TypeSet.parts s, u.allNames p = true := by
  rw [TypeSet.allNames, List.all_eq_true, TypeSet.parts, List.forall_mem_flatMap]
  exact forall₂_congr fun t _ => Tag.allNames_iff_parts

/-- All names in a signature pass a test exactly if those in each tag that occurs
in it do. -/
theorem Signature.allNames_iff_parts {p : Name → Bool} {s : Signature} :
    s.allNames p = true ↔ ∀ u ∈ s.parts, u.allNames p = true := by
  rw [Signature.allNames, List.all_eq_true, Signature.parts, List.forall_mem_flatMap]
  exact forall₂_congr fun t _ => TypeSet.allNames_iff_parts

/-- One way to register names. -/
inductive Registration where
  /-- Register a tag, which is refused if it has arguments. -/
  | tag (t : Tag)
  /-- Register the atomic tags of a scope. -/
  | scope (bindings : List (String × Value))

namespace Vocabulary

/-- The vocabulary after a registration. One that is refused changes nothing. -/
def enroll (v : Vocabulary) : Registration → Vocabulary
  | .tag t =>
    match v.add t with
    | .ok w => w
    | .error _ => v
  | .scope bindings => v.addScope bindings

/-- The vocabulary after several registrations, in order. -/
def enrollAll (v : Vocabulary) (registrations : List Registration) : Vocabulary :=
  registrations.foldl enroll v

/-- A vocabulary knows the names of another and is closed if and only if the
other one is. -/
structure Enlarges (w v : Vocabulary) : Prop where
  /-- No name is lost. -/
  names : ∀ n ∈ v.names, n ∈ w.names
  /-- Registering opens and closes nothing. -/
  closed : w.closed = v.closed

namespace Enlarges

/-- Every vocabulary enlarges itself. -/
theorem refl (v : Vocabulary) : v.Enlarges v := ⟨fun _ h => h, rfl⟩

/-- Vocabularies are enlarged step by step. -/
theorem trans {u v w : Vocabulary} (h : w.Enlarges v) (h' : v.Enlarges u) : w.Enlarges u :=
  ⟨fun n hn => h.names n (h'.names n hn), h.closed.trans h'.closed⟩

end Enlarges

section Registering

variable (v : Vocabulary)

/-- Registering a name enlarges a vocabulary. -/
theorem enlarges_register (n : Name) : (v.register n).Enlarges v := by
  unfold register
  split
  · exact .refl v
  · exact ⟨fun m hm => List.mem_append_left [n] hm, rfl⟩

/-- Registering a tag enlarges a vocabulary. -/
theorem enlarges_add {t : Tag} {w : Vocabulary} (h : v.add t = .ok w) : w.Enlarges v := by
  unfold add at h
  split at h
  · cases h
    exact v.enlarges_register t.name
  · cases h

/-- Registering the atomic tags among some values enlarges a vocabulary. -/
theorem enlarges_addValues (values : List Value) : (v.addValues values).Enlarges v := by
  induction values generalizing v with
  | nil => exact .refl v
  | cons x values ih =>
    cases x with
    | tag t =>
      rw [addValues]
      refine (ih _).trans ?_
      split
      · exact v.enlarges_register t.name
      · exact .refl v
    | _ => exact ih v

/-- A registration enlarges a vocabulary. -/
theorem enlarges_enroll (registration : Registration) : (v.enroll registration).Enlarges v := by
  cases registration with
  | tag t =>
    simp only [enroll]
    split
    · rename_i w hadd
      exact v.enlarges_add hadd
    · exact .refl v
  | scope bindings => exact v.enlarges_addValues _

/-- Registrations enlarge a vocabulary. -/
theorem enlarges_enrollAll (registrations : List Registration) :
    (v.enrollAll registrations).Enlarges v := by
  induction registrations generalizing v with
  | nil => exact .refl v
  | cons registration registrations ih =>
    exact (ih (v.enroll registration)).trans (v.enlarges_enroll registration)

end Registering

end Vocabulary

namespace Surface

variable {v w : Vocabulary}

section Transfer

/-- A token stands for a name in every vocabulary that accepts the name. -/
theorem NameToken.transfer {token : String} {n : Name} (h : NameToken v token n)
    (hw : w.closed = true → w.names.contains n = true) : NameToken w token n :=
  ⟨h.notReserved, h.notEmptySign, h.text_eq, fun hc => List.contains_iff_mem.1 (hw hc)⟩

mutual

/-- Tokens that derive a tag derive it with every vocabulary that accepts the
names in the tag. -/
theorem DerivesTag.transfer {tokens : List String} {t : Tag} (h : DerivesTag v tokens t)
    (hw : w.closed = true → t.allNames w.names.contains = true) : DerivesTag w tokens t := by
  cases h with
  | @atom token n htoken =>
    refine .atom (htoken.transfer fun hc => ?_)
    have hnames := hw hc
    rw [Tag.atom, Tag.allNames_mk, Bool.and_eq_true] at hnames
    exact hnames.1
  | @applied token n inner ts htoken hts =>
    have hnames (hc : w.closed = true) : w.names.contains n = true ∧
        ∀ t ∈ ts, t.allNames w.names.contains = true := by
      have hall := hw hc
      rwa [Tag.allNames_mk, Bool.and_eq_true, List.all_eq_true] at hall
    exact .applied (htoken.transfer fun hc => (hnames hc).1) (hts.transfer fun hc => (hnames hc).2)
termination_by (tokens.length, 0)

/-- Tokens that derive tags derive them with every vocabulary that accepts the
names in the tags. -/
theorem DerivesTags.transfer {mark : String} {tokens : List String} {ts : List Tag}
    (h : DerivesTags v mark tokens ts)
    (hw : w.closed = true → ∀ t ∈ ts, t.allNames w.names.contains = true) :
    DerivesTags w mark tokens ts := by
  cases h with
  | one ht => exact .one (ht.transfer fun hc => hw hc _ List.mem_cons_self)
  | more ht hts =>
    exact .more (ht.transfer fun hc => hw hc _ List.mem_cons_self)
      (hts.transfer fun hc t hmem => hw hc t (List.mem_cons_of_mem _ hmem))
termination_by (tokens.length, 1)

end

/-- Tokens that derive a set derive it with every vocabulary that accepts the
names in the set. -/
theorem DerivesSet.transfer {tokens : List String} {s : TypeSet} (h : DerivesSet v tokens s)
    (hw : w.closed = true → TypeSet.allNames w.names.contains s = true) :
    DerivesSet w tokens s := by
  cases h with
  | empty hsign => exact .empty hsign
  | ofTags hts =>
    exact .ofTags (hts.transfer fun hc t hmem =>
      List.all_eq_true.1 (hw hc) t (Ascending.mem_ofList.2 hmem))

/-- Tokens that derive sets derive them with every vocabulary that accepts the
names in the sets. -/
theorem DerivesSets.transfer {tokens : List String} {ps : List TypeSet}
    (h : DerivesSets v tokens ps)
    (hw : w.closed = true → ∀ p ∈ ps, TypeSet.allNames w.names.contains p = true) :
    DerivesSets w tokens ps := by
  induction h with
  | one hp => exact .one (hp.transfer fun hc => hw hc _ List.mem_cons_self)
  | more hp hps ih =>
    exact .more (hp.transfer fun hc => hw hc _ List.mem_cons_self)
      (ih fun hc p hmem => hw hc p (List.mem_cons_of_mem _ hmem))

/-- Tokens that derive a signature derive it with every vocabulary that accepts
the names in the signature. -/
theorem DerivesSignature.transfer {tokens : List String} {s : Signature}
    (h : DerivesSignature v tokens s)
    (hw : w.closed = true → s.allNames w.names.contains = true) : DerivesSignature w tokens s := by
  cases h with
  | empty => exact .empty
  | ofSets hps => exact .ofSets (hps.transfer fun hc => List.all_eq_true.1 (hw hc))

end Transfer

end Surface

namespace Vocabulary

open Surface

variable {v w : Vocabulary} {text : String}

section Reading

/-- A closed vocabulary writes registered names only. -/
theorem contains_of_writes (hclosed : v.closed = true) (n : Name) (h : v.writes n = true) :
    v.names.contains n = true :=
  List.contains_iff_mem.2 ((writes_iff.1 h).2 hclosed)

/-- A closed vocabulary has registered the names in each tag that it reads. -/
theorem contains_of_readTag (hclosed : v.closed = true) {t : Tag} (h : v.readTag text = .ok t) :
    t.allNames v.names.contains = true :=
  t.allNames_mono (contains_of_writes hclosed) (allNames_of_readTag h)

/-- A closed vocabulary has registered the names in each set that it reads. -/
theorem contains_of_readSet (hclosed : v.closed = true) {s : TypeSet}
    (h : v.readSet text = .ok s) : TypeSet.allNames v.names.contains s = true :=
  TypeSet.allNames_mono (contains_of_writes hclosed) (allNames_of_readSet h)

/-- A closed vocabulary has registered the names in each signature that it
reads. -/
theorem contains_of_readSignature (hclosed : v.closed = true) {s : Signature}
    (h : v.readSignature text = .ok s) : s.allNames v.names.contains = true :=
  Signature.allNames_mono (contains_of_writes hclosed) (allNames_of_readSignature h)

/-- A tag is read the same way by every vocabulary that accepts its names. -/
theorem readTag_transfer {t : Tag} (h : v.readTag text = .ok t)
    (hw : w.closed = true → t.allNames w.names.contains = true) : w.readTag text = .ok t :=
  readTag_eq_ok_iff.2 ((readTag_eq_ok_iff.1 h).transfer hw)

/-- A set is read the same way by every vocabulary that accepts its names. -/
theorem readSet_transfer {s : TypeSet} (h : v.readSet text = .ok s)
    (hw : w.closed = true → TypeSet.allNames w.names.contains s = true) :
    w.readSet text = .ok s :=
  readSet_eq_ok_iff.2 ((readSet_eq_ok_iff.1 h).transfer hw)

/-- A signature is read the same way by every vocabulary that accepts its
names. -/
theorem readSignature_transfer {s : Signature} (h : v.readSignature text = .ok s)
    (hw : w.closed = true → s.allNames w.names.contains = true) : w.readSignature text = .ok s :=
  readSignature_eq_ok_iff.2 ((readSignature_eq_ok_iff.1 h).transfer hw)

end Reading

/-- A closed vocabulary only filters: it reads a text as a value if and only if
the open vocabulary without names reads the text as this value and every tag
that occurs in the value is made of registered names. So it still reads the
value after any further registrations. -/
theorem closed_only_filters (v : Vocabulary) (hclosed : v.closed = true) (text : String) :
    (∀ t, v.readTag text = .ok t ↔
        ({} : Vocabulary).readTag text = .ok t ∧ ∀ u ∈ t.parts, v.holds (.tag u) = true) ∧
      (∀ s, v.readSet text = .ok s ↔
        ({} : Vocabulary).readSet text = .ok s ∧
          ∀ u ∈ TypeSet.parts s, v.holds (.tag u) = true) ∧
      (∀ s, v.readSignature text = .ok s ↔
        ({} : Vocabulary).readSignature text = .ok s ∧
          ∀ u ∈ s.parts, v.holds (.tag u) = true) ∧
      ∀ registrations : List Registration,
        (∀ t, v.readTag text = .ok t → (v.enrollAll registrations).readTag text = .ok t) ∧
        (∀ s, v.readSet text = .ok s → (v.enrollAll registrations).readSet text = .ok s) ∧
        ∀ s, v.readSignature text = .ok s →
          (v.enrollAll registrations).readSignature text = .ok s := by
  have hopen : ({} : Vocabulary).closed ≠ true := Bool.false_ne_true
  refine ⟨fun t => ⟨fun hread => ?_, fun ⟨hread, hparts⟩ => ?_⟩,
    fun s => ⟨fun hread => ?_, fun ⟨hread, hparts⟩ => ?_⟩,
    fun s => ⟨fun hread => ?_, fun ⟨hread, hparts⟩ => ?_⟩, fun registrations => ?_⟩
  · exact ⟨readTag_transfer hread fun h => absurd h hopen,
      Tag.allNames_iff_parts.1 (contains_of_readTag hclosed hread)⟩
  · exact readTag_transfer hread fun _ => Tag.allNames_iff_parts.2 hparts
  · exact ⟨readSet_transfer hread fun h => absurd h hopen,
      TypeSet.allNames_iff_parts.1 (contains_of_readSet hclosed hread)⟩
  · exact readSet_transfer hread fun _ => TypeSet.allNames_iff_parts.2 hparts
  · exact ⟨readSignature_transfer hread fun h => absurd h hopen,
      Signature.allNames_iff_parts.1 (contains_of_readSignature hclosed hread)⟩
  · exact readSignature_transfer hread fun _ => Signature.allNames_iff_parts.2 hparts
  · have hlater (n : Name) (h : v.names.contains n = true) :
        (v.enrollAll registrations).names.contains n = true :=
      List.contains_iff_mem.2
        ((v.enlarges_enrollAll registrations).names n (List.contains_iff_mem.1 h))
    exact ⟨fun t hread => readTag_transfer hread fun _ =>
        t.allNames_mono hlater (contains_of_readTag hclosed hread),
      fun s hread => readSet_transfer hread fun _ =>
        TypeSet.allNames_mono hlater (contains_of_readSet hclosed hread),
      fun s hread => readSignature_transfer hread fun _ =>
        Signature.allNames_mono hlater (contains_of_readSignature hclosed hread)⟩

/-- The name of lists. -/
def listName : Name := ⟨"List", by decide⟩

/-- The name of integers. -/
def intName : Name := ⟨"Int", by decide⟩

/-- The name of mappings. -/
def mapName : Name := ⟨"Map", by decide⟩

/-- A closed vocabulary in which the names of lists and integers were registered,
while a tag with arguments was refused. -/
def listVocabulary : Vocabulary :=
  ({ closed := true } : Vocabulary).enrollAll
    [.tag (.atom listName), .tag (.mk mapName [.atom intName]), .scope [("x", .tag (.atom intName))]]

/-- Integers, lists of them, and integers again are read as a set of two tags,
also after one more name is registered; the refused name is not read. -/
theorem closed_only_filters_list :
    listVocabulary.closed = true ∧
      listVocabulary.readSet "Int|List ( Int )| Int" =
        .ok (.ofList [.atom intName, .mk listName [.atom intName]]) ∧
      (listVocabulary.enrollAll [.tag (.atom mapName)]).readSet "Int|List ( Int )| Int" =
        .ok (.ofList [.atom intName, .mk listName [.atom intName]]) ∧
      ∀ t, listVocabulary.readTag "Map(Int)" ≠ .ok t := by
  have hclosed : listVocabulary.closed = true := rfl
  have hint : DerivesTag {} ["Int"] (.atom intName) := .atom (nameToken_of_open rfl intName (by decide))
  have hlist : DerivesTag {} ["List", "(", "Int", ")"] (.mk listName [.atom intName]) :=
    .applied (nameToken_of_open rfl listName (by decide)) (.one hint)
  have hmap : DerivesTag {} ["Map", "(", "Int", ")"] (.mk mapName [.atom intName]) :=
    .applied (nameToken_of_open rfl mapName (by decide)) (.one hint)
  have hset : ({} : Vocabulary).readSet "Int|List ( Int )| Int" =
      .ok (.ofList [.atom intName, .mk listName [.atom intName], .atom intName]) := by
    have htokens : tokenize "Int|List ( Int )| Int" =
        ["Int"] ++ "|" :: (["List", "(", "Int", ")"] ++ "|" :: ["Int"]) := by decide
    rw [readSet_eq_ok_iff, htokens]
    exact .ofTags (.more hint (.more hlist (.one hint)))
  have htag : ({} : Vocabulary).readTag "Map(Int)" = .ok (.mk mapName [.atom intName]) := by
    have htokens : tokenize "Map(Int)" = ["Map", "(", "Int", ")"] := by decide
    rw [readTag_eq_ok_iff, htokens]
    exact hmap
  have hread := ((closed_only_filters listVocabulary hclosed "Int|List ( Int )| Int").2.1 _).2
    ⟨hset, by decide⟩
  refine ⟨hclosed, hread, ?_, fun t ht => ?_⟩
  · exact ((closed_only_filters listVocabulary hclosed _).2.2.2 [.tag (.atom mapName)]).2.1 _ hread
  · obtain ⟨hfree, hparts⟩ :=
      ((closed_only_filters listVocabulary hclosed "Map(Int)").1 t).1 ht
    cases htag.symm.trans hfree
    exact absurd (hparts _ (Tag.mem_parts_self _)) (by decide)

end Vocabulary

end DispatchCoverage
