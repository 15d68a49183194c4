/-!
# Names of serial forms

A graph can be written in one of five serial forms. Each has a short name, and
most have longer names and a media type too. Some other names belong to forms
for several graphs at once, which a single graph cannot be written in.
-/

namespace DispatchCoverage

/-- A serial form. -/
inductive Format where
  /-- Turtle. -/
  | turtle
  /-- RDF/XML. -/
  | xml
  /-- N-Triples. -/
  | nTriples
  /-- JSON-LD. -/
  | jsonLd
  /-- TriG. -/
  | trig
  deriving DecidableEq

/-- Why a name gives no form for a single graph. -/
inductive FormatError where
  /-- No form has the name. -/
  | unknown
  /-- The form is for several graphs at once. -/
  | severalGraphs

namespace Format

/-- The short names of the serial forms. -/
def table : List (String × Format) :=
  [("ttl", turtle), ("xml", xml), ("nt", nTriples), ("json-ld", jsonLd), ("trig", trig)]

/-- The longer names and the media types of the serial forms. -/
def longTable : List (String × Format) :=
  [("turtle", turtle), ("text/turtle", turtle), ("n3", turtle), ("text/n3", turtle),
    ("application/rdf+xml", xml), ("ntriples", nTriples), ("nt11", nTriples),
    ("application/n-triples", nTriples), ("application/ld+json", jsonLd),
    ("application/trig", trig)]

/-- The names of the forms for several graphs at once. -/
def severalGraphsNames : List String :=
  ["nquads", "application/n-quads", "trix", "application/trix"]

/-- The serial form with a short name. -/
def ofName? (name : String) : Option Format :=
  (table.find? (fun entry => entry.1 == name)).map Prod.snd

/-- The serial form with a name of any kind. -/
def ofAnyName (name : String) : Except FormatError Format :=
  match (table ++ longTable).find? (fun entry => entry.1 == name) with
  | some (_, format) => .ok format
  | none => .error (if severalGraphsNames.contains name then .severalGraphs else .unknown)

/-- A short name stands for the same form wherever names of any kind may
stand. -/
theorem ofAnyName_eq_ok_of_ofName? {name : String} {format : Format}
    (h : ofName? name = some format) : ofAnyName name = .ok format := by
  obtain ⟨entry, hentry, rfl⟩ := Option.map_eq_some_iff.1 h
  simp [ofAnyName, List.find?_append, hentry]

/-- Whether a form puts addresses into angle brackets. -/
def bracketsAddresses : Format → Bool
  | turtle => true
  | nTriples => true
  | trig => true
  | xml => false
  | jsonLd => false

end Format

end DispatchCoverage
