import DispatchCoverage.Command.Program

/-!
# Invocations of the check command

The check command is given an interface and implementations by switches, a
greatest number of rounds, and the names of files. Whatever the texts are, the
program reads its arguments as just this request. Implementations without an
interface are refused, and the program shows how it is used.
-/

namespace DispatchCoverage.Command

/-! ## Reading single switches -/

section Switches

variable {table : List (String × Switch)} {switch : Switch} {name : String} {a : Arguments}

/-- A switch with a value of its kind is taken, unless it is there already and may
not be repeated. -/
theorem addSwitch_eq_ok {value : String} (haccepts : switch.accepts value = true)
    (hnew : a.has switch = false ∨ switch.isRepeatable = true) (shown : String) :
    a.addSwitch switch shown value =
      .ok { a with switches := a.switches ++ [(switch, value)] } := by
  rcases hnew with hnew | hnew <;> simp [Arguments.addSwitch, haccepts, hnew]

/-- A short switch takes the next argument as its value. -/
theorem readArguments_short {c : Char} (hc : c ≠ '-')
    (hfind : table.find? (fun entry => entry.1 == c.toString) = some (name, switch))
    (htakes : switch.takesValue = true) {value : String} (haccepts : switch.accepts value = true)
    (hnew : a.has switch = false ∨ switch.isRepeatable = true) (argv : List (List Char)) :
    readArguments table [] (['-', c] :: value.toList :: argv) a =
      readArguments table [] argv { a with switches := a.switches ++ [(switch, value)] } := by
  rw [readArguments]
  · simp only [List.contains_nil, Bool.false_eq_true, if_false, hfind, htakes, if_true,
      shortValue?, String.ofList_toList, addSwitch_eq_ok haccepts hnew]
    rfl
  · simp [hc]
  · simp [hc]

/-- A long switch takes what stands behind its equals sign as its value. -/
theorem readArguments_long {long : String} (hsign : '=' ∉ long.toList) (hlong : long ≠ "")
    (hfind : table.find? (fun entry => entry.1 == long) = some (name, switch))
    (htakes : switch.takesValue = true) {value : String} (haccepts : switch.accepts value = true)
    (hnew : a.has switch = false ∨ switch.isRepeatable = true) (hvalue : value ≠ "")
    (argv : List (List Char)) :
    readArguments table [] (("--" ++ long ++ "=" ++ value).toList :: argv) a =
      readArguments table [] argv { a with switches := a.switches ++ [(switch, value)] } := by
  have hother : ∀ c ∈ long.toList, decide (c ≠ '=') = true := fun c hc =>
    decide_eq_true (ne_of_mem_of_not_mem hc hsign)
  have htake : (long.toList ++ '=' :: value.toList).takeWhile (· ≠ '=') = long.toList := by
    rw [List.takeWhile_append_of_pos hother, List.takeWhile_cons_of_neg (by decide),
      List.append_nil]
  have hdrop : (long.toList ++ '=' :: value.toList).dropWhile (· ≠ '=') = '=' :: value.toList := by
    rw [List.dropWhile_append_of_pos hother, List.dropWhile_cons_of_neg (by decide)]
  have hlist : ("--" ++ long ++ "=" ++ value).toList =
      '-' :: '-' :: (long.toList ++ '=' :: value.toList) := by
    simp [String.toList_append]
  have hne : value.toList ≠ [] := fun h => hvalue (String.toList_eq_nil_iff.1 h)
  obtain ⟨c, rest, hcons⟩ := List.exists_cons_of_ne_nil hne
  have hread : longValue? (some value.toList) argv = some (value.toList, 0) := by
    rw [hcons, longValue?]
  rw [hlist, readArguments]
  · simp only [List.contains_nil, Bool.false_eq_true, if_false, htake, hdrop, String.ofList_toList,
      hfind, htakes, if_true, hread, List.isEmpty_cons, List.tail_cons,
      addSwitch_eq_ok haccepts hnew]
    rfl
  · simp [hlong]

/-- What follows two hyphens are operands. -/
theorem readArguments_operands (operands : List (List Char)) :
    readArguments table [] (['-', '-'] :: operands) a =
      .ok { a with operands := a.operands ++ operands.map String.ofList } := by
  rw [readArguments]
  rfl

end Switches

/-! ## Reading an invocation -/

/-- What the check command is given. -/
structure Invocation where
  /-- The interface given by a switch, if there is one. -/
  interface : Option String
  /-- The implementations given by switches. -/
  implementations : List String
  /-- The greatest number of rounds, if there is one. -/
  rounds : Option String
  /-- The names of the files with declarations. -/
  files : List String

namespace Invocation

/-- The arguments of the program. -/
def arguments (c : Invocation) : List String :=
  "check" :: ((c.interface.toList.flatMap fun s => ["-i", s]) ++
    ((c.implementations.flatMap fun s => ["-m", s]) ++
      (c.rounds.toList.map ("--max-rounds=" ++ ·) ++ "--" :: c.files)))

/-- The switches that the program is given, with their values. -/
def switches (c : Invocation) : List (Switch × String) :=
  c.interface.toList.map (.interface, ·) ++ c.implementations.map (.implementation, ·) ++
    c.rounds.toList.map (.maxRounds, ·)

/-- An invocation whose interface is not empty, and whose number of rounds is
one. -/
structure IsProper (c : Invocation) : Prop where
  /-- The interface is absent or has a text. -/
  interface : c.interface ≠ some ""
  /-- The number of rounds is absent or a number that can be asked for. -/
  rounds : ∀ text, c.rounds = some text → (Switch.budget? text).isSome = true

/-- What the check command is asked for. -/
def request (c : Invocation) : CheckRequest where
  interface := c.interface
  implementations := c.implementations
  format := none
  output := none
  budget := c.rounds.bind Switch.budget?
  strict := true
  paths := c.files

end Invocation

section Reading

variable {a : Arguments} (argv : List (List Char))

/-- An interface is taken as the value of its switch. -/
theorem readArguments_interface (hnew : a.has .interface = false) (interface : Option String) :
    readArguments Switch.checkTable []
        ((interface.toList.flatMap fun s => ["-i", s]).map String.toList ++ argv) a =
      readArguments Switch.checkTable [] argv
        { a with switches := a.switches ++ interface.toList.map (.interface, ·) } := by
  have hfind : Switch.checkTable.find? (fun entry => entry.1 == 'i'.toString) =
      some ("i", .interface) := rfl
  cases interface with
  | none => simp
  | some s => exact readArguments_short (by decide) hfind rfl rfl (.inl hnew) argv

/-- Implementations are taken as values of their switch. -/
theorem readArguments_implementations (implementations : List String) :
    readArguments Switch.checkTable []
        ((implementations.flatMap fun s => ["-m", s]).map String.toList ++ argv) a =
      readArguments Switch.checkTable [] argv
        { a with switches := a.switches ++ implementations.map (.implementation, ·) } := by
  have hfind : Switch.checkTable.find? (fun entry => entry.1 == 'm'.toString) =
      some ("m", .implementation) := rfl
  induction implementations generalizing a with
  | nil => simp
  | cons s rest ih =>
    have hread : ∀ rest, readArguments Switch.checkTable [] (['-', 'm'] :: s.toList :: rest) a =
        readArguments Switch.checkTable [] rest
          { a with switches := a.switches ++ [(.implementation, s)] } :=
      readArguments_short (by decide) hfind rfl rfl (.inr rfl)
    refine (hread ((rest.flatMap fun s => ["-m", s]).map String.toList ++ argv)).trans ?_
    rw [ih, List.append_assoc]
    rfl

/-- A number of rounds is taken as the value of its switch. -/
theorem readArguments_rounds (hnew : a.has .maxRounds = false) {rounds : Option String}
    (hrounds : ∀ text, rounds = some text → (Switch.budget? text).isSome = true) :
    readArguments Switch.checkTable []
        ((rounds.toList.map ("--max-rounds=" ++ ·)).map String.toList ++ argv) a =
      readArguments Switch.checkTable [] argv
        { a with switches := a.switches ++ rounds.toList.map (.maxRounds, ·) } := by
  have hfind : Switch.checkTable.find? (fun entry => entry.1 == "max-rounds") =
      some ("max-rounds", .maxRounds) := rfl
  cases rounds with
  | none => simp
  | some text =>
    have haccepts : Switch.maxRounds.accepts text = true := hrounds text rfl
    have hvalue : text ≠ "" := by
      rintro rfl
      exact absurd haccepts (by decide)
    exact readArguments_long (by decide) (by decide) hfind rfl haccepts (.inl hnew) hvalue argv

end Reading

/-- What stands behind the name of the check command is read by it. -/
theorem readRequest_check (argv : List String) :
    readRequest ("check" :: argv) = readCheck false argv := by
  have hread : readArguments Switch.programTable commandNames
      (("check" :: argv).map String.toList) {} =
        .ok { command := some ((argv.map String.toList).map String.ofList) } := by
    rw [List.map_cons, readArguments.eq_def]
    dsimp only
    rw [if_pos (by decide)]
  have hargv : (argv.map String.toList).map String.ofList = argv := by
    rw [List.map_map]
    simp
  rw [hargv] at hread
  rw [readRequest, hread]
  rfl

namespace Invocation

variable {c : Invocation}

/-- The arguments of the check command are read as the switches with their values,
and the files as operands. -/
theorem readArguments_eq (h : c.IsProper) :
    readArguments Switch.checkTable [] (c.arguments.tail.map String.toList) {} =
      .ok { switches := c.switches, operands := c.files } := by
  have hnew : Arguments.has ⟨c.interface.toList.map (Switch.interface, ·) ++
      c.implementations.map (Switch.implementation, ·), [], none⟩ .maxRounds = false := by
    simp [Arguments.has]
  rw [arguments, List.tail_cons, List.map_append, List.map_append, List.map_append,
    readArguments_interface _ rfl, readArguments_implementations]
  refine (readArguments_rounds _ hnew h.rounds).trans ?_
  refine (readArguments_operands (c.files.map String.toList)).trans ?_
  simp [switches]

/-- The switches of a kind that an invocation gives. -/
theorem filter_switches (c : Invocation) (switch : Switch) :
    c.switches.filter (fun entry => entry.1 == switch) =
      match switch with
      | .interface => c.interface.toList.map (.interface, ·)
      | .implementation => c.implementations.map (.implementation, ·)
      | .maxRounds => c.rounds.toList.map (.maxRounds, ·)
      | _ => [] := by
  have hkind : ∀ (given : Switch) (values : List String),
      (values.map (given, ·)).filter (fun entry => entry.1 == switch) =
        if given = switch then values.map (given, ·) else [] := by
    intro given values
    by_cases heq : given = switch
    · rw [if_pos heq, List.filter_eq_self.2]
      simp [heq]
    · rw [if_neg heq, List.filter_eq_nil_iff.2]
      simp [heq]
  rw [switches, List.filter_append, List.filter_append, hkind, hkind, hkind]
  cases switch <;> simp

/-- A switch is among those that were read if the invocation gives it. -/
theorem has_switches (c : Invocation) (switch : Switch) :
    Arguments.has ⟨c.switches, c.files, none⟩ switch =
      !(c.switches.filter fun entry => entry.1 == switch).isEmpty := by
  rw [Bool.eq_iff_iff, Arguments.has, Bool.not_eq_true', List.isEmpty_eq_false_iff]
  simp [List.filter_eq_nil_iff]

/-- The switches and files of an invocation make up its request. -/
theorem checkRequest_switches (h : c.IsProper) :
    checkRequest ⟨c.switches, c.files, none⟩ = c.request := by
  have hvalue : ∀ switch, Arguments.value? ⟨c.switches, c.files, none⟩ switch =
      ((c.switches.filter fun entry => entry.1 == switch).head?).map Prod.snd := by
    intro switch
    rw [Arguments.value?, List.head?_filter]
  have hinterface : c.interface.bind unlessEmpty = c.interface := by
    cases hsome : c.interface with
    | none => rfl
    | some s =>
      have hs : s ≠ "" := fun hs => h.interface (hsome.trans (congrArg some hs))
      simp [unlessEmpty, hs]
  simp [checkRequest, hvalue, has_switches, Arguments.values, filter_switches, hinterface, request,
    Function.comp_def]

/-- The check command reads its arguments as the request that they state. It
refuses implementations without an interface. -/
theorem readCheck_arguments (h : c.IsProper) :
    readCheck false c.arguments.tail =
      if c.interface = none ∧ c.implementations ≠ [] then .usage (some .needsInterface) 2
      else .check false c.request := by
  rw [readCheck, readArguments_eq h]
  dsimp only
  rw [checkRequest_switches h]
  simp only [has_switches, filter_switches]
  cases c.interface <;> cases c.implementations <;> simp

/-- The program reads the arguments of an invocation as the request that it
states. It refuses implementations without an interface. -/
theorem readRequest_arguments (h : c.IsProper) :
    readRequest c.arguments =
      if c.interface = none ∧ c.implementations ≠ [] then .usage (some .needsInterface) 2
      else .check false c.request := by
  rw [← readCheck_arguments h]
  exact readRequest_check c.arguments.tail

end Invocation

/-- A check of files is read with the form of its outcome. -/
theorem readRequest_form {name : String} {format : Option Format}
    (h : Switch.formNamed? name = some format) (files : List String) :
    readRequest ("check" :: "-t" :: name :: "--" :: files) =
      .check false ⟨none, [], format, none, none, true, files⟩ := by
  have hfind : Switch.checkTable.find? (fun entry => entry.1 == 't'.toString) =
      some ("t", .form) := rfl
  have haccepts : Switch.form.accepts name = true := by rw [Switch.accepts, h]; rfl
  have hread : readArguments Switch.checkTable []
      (("-t" :: name :: "--" :: files).map String.toList) {} =
        .ok { switches := [(.form, name)], operands := files } := by
    refine (readArguments_short (by decide) hfind rfl haccepts (.inl rfl) _).trans ?_
    refine (readArguments_operands (files.map String.toList)).trans ?_
    simp
  rw [readRequest_check, readCheck, hread]
  simp [Arguments.has, Arguments.value?, Arguments.values, checkRequest, h]

end DispatchCoverage.Command
