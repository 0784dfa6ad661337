import TypeLineage.Proofs.CommandLine.Outcome

/-!
# The roots named on a command line

The values of the options that name roots are collected on the two levels of a command line, before
the command and behind it. Nothing is lost within a level, but the levels are not joined: roots named
behind the command replace those named before it (`sources_of_accepted`).

What is named is said here without the levels and without what waits on them: a command line is cut
into its `items` from left to right, and the roots are the values of the source options among these.
-/

namespace TypeLineage.CommandLine

/-- A part of a command line that counts by itself. -/
inductive Item where
  /-- An option, with its value if it has one. -/
  | option (flag : Flag) (value : Option String)
  /-- A word that is neither an option nor the value of one. -/
  | word (text : String)
  deriving DecidableEq, Repr

namespace Item

/-- Whether an item is an option. -/
def isOption : Item → Bool
  | .option _ _ => true
  | .word _ => false

/-- The root that an item names. -/
def root? : Item → Option Files.Path
  | .option .source (some value) => some ⟨value⟩
  | _ => none

end Item

/-- The value that stands behind the name of an option in the same word. -/
def behindName : List Char → Option String
  | [] => none
  | _ :: value => some (String.ofList value)

/-- The value that stands behind the letter of an option in the same word. -/
def behindLetter : List Char → Option String
  | [] => none
  | '=' :: value => some (String.ofList value)
  | value => some (String.ofList value)

/-- The option that a word is, with the value that stands in the same word if there is one. -/
def optionOf? : List Char → Option (Flag × Option String)
  | '-' :: '-' :: rest =>
    (Flag.ofLong? (String.ofList (rest.takeWhile (· != '=')))).map
      (·, behindName (rest.dropWhile (· != '=')))
  | '-' :: letter :: rest => (Flag.ofShort? letter).map (·, behindLetter rest)
  | _ => none

/-- The parts of a command line. The value of an option is in the same word or is the next word; two
dashes end the options. -/
def items : List String → List Item
  | [] => []
  | word :: rest =>
    if word.toList = ['-', '-'] then rest.map .word
    else
      match optionOf? word.toList with
      | none => .word word :: items rest
      | some (flag, some value) => .option flag (some value) :: items rest
      | some (flag, none) =>
        if flag.valueName?.isNone then .option flag none :: items rest
        else
          match rest with
          | [] => [.option flag none]
          | value :: rest => .option flag (some value) :: items rest

/-- The roots that are named, in their order. -/
def named (items : List Item) : List Files.Path :=
  items.filterMap Item.root?

/-- The roots named before the command. -/
def namedBefore (words : List String) : List Files.Path :=
  named ((items words).takeWhile Item.isOption)

/-- The roots named behind the command. -/
def namedBehind (words : List String) : List Files.Path :=
  named ((items words).dropWhile Item.isOption)

theorem named_append (front back : List Item) : named (front ++ back) = named front ++ named back :=
  List.filterMap_append

theorem named_word_cons (word : String) (items : List Item) :
    named (.word word :: items) = named items :=
  rfl

theorem named_words (words : List String) : named (words.map .word) = [] := by
  simp [named, Item.root?]

/-- Every root is named before the command or behind it. -/
theorem named_items (words : List String) :
    named (items words) = namedBefore words ++ namedBehind words := by
  rw [namedBefore, namedBehind, ← named_append, List.takeWhile_append_dropWhile]

section Options

variable {word : String} {flag : Flag} (dashes : word.toList ≠ ['-', '-'])
include dashes

/-- An option with its value in the same word is a part. -/
theorem items_valued {value : String} (option : optionOf? word.toList = some (flag, some value))
    (rest : List String) : items (word :: rest) = .option flag (some value) :: items rest := by
  rw [items.eq_def]
  simp only [dashes, if_false, option]

/-- An option that has no value is a part. -/
theorem items_bare (option : optionOf? word.toList = some (flag, none))
    (bare : flag.valueName? = none) (rest : List String) :
    items (word :: rest) = .option flag none :: items rest := by
  rw [items.eq_def]
  simp only [dashes, if_false, option, bare, Option.isNone_none, if_true]

/-- An option whose value is not in the same word is a part with the next word. -/
theorem items_awaiting (option : optionOf? word.toList = some (flag, none))
    (valued : flag.valueName?.isNone = false) (rest : List String) :
    items (word :: rest) =
      match rest with
      | [] => [.option flag none]
      | value :: rest => .option flag (some value) :: items rest := by
  rw [items.eq_def]
  simp only [dashes, if_false, option, valued, Bool.false_eq_true]

/-- A word that is no option is a part. -/
theorem items_plain (plain : optionOf? word.toList = none) (rest : List String) :
    items (word :: rest) = .word word :: items rest := by
  rw [items.eq_def]
  simp only [dashes, if_false, plain]

end Options

/-! ### Results -/

/-- Of two steps that succeed one after the other the first does. -/
theorem exists_of_bind_eq_ok {ε α β : Type} {result : Except ε α} {next : α → Except ε β} {value : β}
    (done : result >>= next = .ok value) :
    ∃ middle, result = .ok middle ∧ next middle = .ok value := by
  cases result with
  | error fault => cases done
  | ok middle => exact ⟨middle, rfl, done⟩

theorem eq_ok_of_mapError {ε ε' α : Type} {result : Except ε α} {rename : ε → ε'} {value : α}
    (done : result.mapError rename = .ok value) : result = .ok value := by
  cases result with
  | error fault => cases done
  | ok middle =>
    cases done
    rfl

/-! ### What a level has come to know -/

/-- A value that is looked at adds the root that it names. -/
theorem Given.sources_set {given given' : Given} {flag : Flag} {value : String}
    (set : given.set flag value = .ok given') :
    given'.sources = given.sources ++ (Item.option flag (some value)).root?.toList ∧
      flag.valueName?.isSome := by
  cases flag with
  | source =>
    obtain ⟨path, found, same⟩ := exists_of_bind_eq_ok set
    unfold pathOf at found
    split at found
    · cases found
    · cases found
      cases same
      exact ⟨rfl, rfl⟩
  | repository | format | logLevel =>
    obtain ⟨-, -, rest⟩ := exists_of_bind_eq_ok set
    obtain ⟨path, -, same⟩ := exists_of_bind_eq_ok rest
    cases same
    exact ⟨(List.append_nil _).symm, rfl⟩
  | repositorySources | help => cases set

namespace Level

/-- The roots of a level, with the one that waits to be looked at. -/
def roots (level : Level) : List Files.Path :=
  level.given.sources ++
    match level.pending with
    | some (.flag flag, some value) => (Item.option flag (some value)).root?.toList
    | _ => []

/-- The parts of what is left to be read on a level. -/
def itemsOf (level : Level) (words : List String) : List Item :=
  if level.optionsEnded then words.map .word
  else
    match level.pending, words with
    | some (.flag flag, none), [] => [.option flag none]
    | some (.flag flag, none), value :: rest => .option flag (some value) :: items rest
    | _, words => items words

variable {level level' : Level} {word : String} {words : List String}

theorem itemsOf_of_ended (ended : level.optionsEnded = true) (words : List String) :
    level.itemsOf words = words.map .word := by
  simp [itemsOf, ended]

theorem itemsOf_of_not_awaiting (ended : level.optionsEnded = false)
    (idle : level.isAwaiting = false) (words : List String) : level.itemsOf words = items words := by
  unfold itemsOf
  unfold isAwaiting at idle
  split at idle <;> simp_all

/-- Where no value is awaited it only counts whether the options have ended. -/
theorem itemsOf_congr (ended : level.optionsEnded = level'.optionsEnded)
    (idle : level.isAwaiting = false) (idle' : level'.isAwaiting = false) (words : List String) :
    level.itemsOf words = level'.itemsOf words := by
  cases ends : level.optionsEnded with
  | true => rw [itemsOf_of_ended ends, itemsOf_of_ended (ended.symm.trans ends)]
  | false =>
    rw [itemsOf_of_not_awaiting ends idle, itemsOf_of_not_awaiting (ended.symm.trans ends) idle']

/-- A level whose pending value has been looked at. -/
structure Resolves (level level' : Level) : Prop where
  /-- No value was awaited. -/
  idle : level.isAwaiting = false
  /-- The roots are those that were named. -/
  sources : level'.given.sources = level.roots
  /-- Nothing is pending. -/
  pending : level'.pending = none
  /-- It is the same level. -/
  topic : level'.topic = level.topic
  /-- The options have ended if they had ended before. -/
  optionsEnded : level'.optionsEnded = level.optionsEnded

theorem Resolves.of_resolved (resolved : level.resolved = .ok level') : Resolves level level' := by
  have done := eq_ok_of_mapError resolved
  unfold resolve at done
  split at done
  · case h_1 none =>
    cases done
    exact ⟨by simp [isAwaiting, none], by simp [roots, none], none, rfl, rfl⟩
  · cases done
  · case h_3 flag value found =>
    obtain ⟨given, set, same⟩ := exists_of_bind_eq_ok done
    cases same
    exact ⟨by simp [isAwaiting, found], by simp [roots, found, (Given.sources_set set).1], rfl, rfl,
      rfl⟩
  · case h_4 name value? found =>
    simp only at done
    split at done
    · cases done
    · cases done
      exact ⟨by simp [isAwaiting, found], by simp [roots, found], rfl, rfl, rfl⟩

/-! ### One word -/

/-- A level takes a word in, which completes some parts. -/
structure Takes (level : Level) (word : String) (parts : List Item) (level' : Level) : Prop where
  /-- The parts are the first of what was left to be read. -/
  items : ∀ rest, level.itemsOf (word :: rest) = parts ++ level'.itemsOf rest
  /-- The roots are those of before and those of the parts. -/
  roots : level'.roots = level.roots ++ named parts
  /-- It is the same level. -/
  topic : level'.topic = level.topic
  /-- Before the command only options are taken in. -/
  options : level.topic = .program → ∀ part ∈ parts, part.isOption = true

/-- Before a word that is an option the pending value is looked at. -/
theorem Resolves.takes {middle : Level} {parts : List Item} (resolves : Resolves level middle)
    (ended : level.optionsEnded = false) (topic : level'.topic = middle.topic)
    (roots : level'.roots = middle.given.sources ++ named parts)
    (items : ∀ rest, items (word :: rest) = parts ++ level'.itemsOf rest)
    (options : ∀ part ∈ parts, part.isOption = true) : Takes level word parts level' where
  items rest := (itemsOf_of_not_awaiting ended resolves.idle _).trans (items rest)
  roots := by rw [roots, resolves.sources]
  topic := topic.trans resolves.topic
  options _ := options

/-- A word that is an option with its value in it is one part. -/
theorem takes_of_readWithValue {flag : Flag} {value : String} (ended : level.optionsEnded = false)
    (dashes : word.toList ≠ ['-', '-']) (option : optionOf? word.toList = some (flag, some value))
    (read : level.readWithValue flag value = .ok level') :
    Takes level word [.option flag (some value)] level' := by
  obtain ⟨middle, resolved, rest⟩ := exists_of_bind_eq_ok read
  obtain ⟨given, set, same⟩ := exists_of_bind_eq_ok rest
  have resolves := Resolves.of_resolved resolved
  cases same
  refine resolves.takes ended rfl ?_ ?_ (by simp [Item.isOption])
  · simp [roots, resolves.pending, (Given.sources_set (eq_ok_of_mapError set)).1, named,
      List.filterMap_cons]
    cases (Item.option flag (some value)).root? <;> rfl
  · intro rest
    have still := itemsOf_of_not_awaiting (resolves.optionsEnded.trans ended)
      (by simp [isAwaiting, resolves.pending]) rest
    rw [items_valued dashes option, ← still]
    rfl

/-- A word that is an option without a value in it is one part if it has none, and otherwise begins
one. -/
theorem exists_takes_of_readAlone {flag : Flag} (ended : level.optionsEnded = false)
    (dashes : word.toList ≠ ['-', '-']) (option : optionOf? word.toList = some (flag, none))
    (read : level.readAlone flag = .ok level') : ∃ parts, Takes level word parts level' := by
  obtain ⟨middle, resolved, rest⟩ := exists_of_bind_eq_ok read
  have resolves := Resolves.of_resolved resolved
  cases flag with
  | help => cases rest
  | repositorySources =>
    obtain ⟨-, -, same⟩ := exists_of_bind_eq_ok rest
    cases same
    refine ⟨[.option .repositorySources none], resolves.takes ended rfl ?_ ?_
      (by simp [Item.isOption])⟩
    · simp [roots, resolves.pending, named, Item.root?]
    · intro rest
      have still := itemsOf_of_not_awaiting (resolves.optionsEnded.trans ended)
        (by simp [isAwaiting, resolves.pending]) rest
      rw [items_bare dashes option rfl, ← still]
      rfl
  | source | repository | format | logLevel =>
    cases rest
    refine ⟨[], resolves.takes ended rfl ?_ ?_ (by simp)⟩
    · simp [roots, named]
    · intro rest
      rw [items_awaiting dashes option rfl]
      simp only [itemsOf, resolves.optionsEnded, ended, Bool.false_eq_true, if_false,
        List.nil_append]
      cases rest <;> rfl

/-- A word that is no option counts by itself, and there is room for it only behind the command. -/
theorem takes_of_readPlain (read : level.readPlain word = .ok level')
    (plain : level.isAwaiting = false → ∀ rest,
      level.itemsOf (word :: rest) = .word word :: level.itemsOf rest) :
    Takes level word [.word word] level' := by
  unfold readPlain at read
  split at read
  · case h_1 name next =>
    obtain ⟨middle, resolved, same⟩ := exists_of_bind_eq_ok read
    have resolves := Resolves.of_resolved resolved
    cases same
    refine ⟨?_, ?_, resolves.topic, ?_⟩
    · intro rest
      rw [plain resolves.idle, List.singleton_append]
      refine congrArg (Item.word word :: ·) (itemsOf_congr ?_ resolves.idle rfl rest)
      exact resolves.optionsEnded.symm
    · simp [roots, resolves.sources, named, Item.root?]
    · intro program
      simp [nextArgument?, argumentNames, program] at next
  · split at read <;> cases read

/-- The only letter that has no value asks for the help. -/
theorem readAlone_of_letter {letter : Char} {flag : Flag} (known : Flag.ofShort? letter = some flag)
    (bare : flag.valueName?.isNone = true) : level.readAlone flag ≠ .ok level' := by
  intro read
  obtain ⟨middle, -, rest⟩ := exists_of_bind_eq_ok read
  have letters := List.find?_some known
  cases flag with
  | help => cases rest
  | repositorySources => cases letters
  | source | repository | format | logLevel => cases bare

/-- A word of letters is the option of the first letter; what is behind it is the value. -/
theorem exists_takes_of_readShort {letter : Char} {rest : List Char}
    (ended : level.optionsEnded = false) (single : letter ≠ '-')
    (same : word.toList = '-' :: letter :: rest)
    (read : level.readShort (letter :: rest) = .ok level') :
    ∃ parts, Takes level word parts level' := by
  have dashes : word.toList ≠ ['-', '-'] := by
    rw [same]
    simp [single]
  have option : optionOf? word.toList = (Flag.ofShort? letter).map (·, behindLetter rest) := by
    rw [same, optionOf?]
    simpa using single
  rw [readShort] at read
  cases known : Flag.ofShort? letter with
  | none =>
    rw [known] at read
    cases read
  | some flag =>
    simp only [known, Option.map_some] at read option
    split at read
    · case isTrue bare =>
      obtain ⟨middle, alone, -⟩ := exists_of_bind_eq_ok read
      exact absurd alone (readAlone_of_letter known bare)
    · split at read
      · exact exists_takes_of_readAlone ended dashes option read
      · exact ⟨_, takes_of_readWithValue ended dashes option read⟩
      · case h_3 nonempty other =>
        have value : behindLetter rest = some (String.ofList rest) := by
          unfold behindLetter
          split <;> simp_all
        exact ⟨_, takes_of_readWithValue ended dashes (value ▸ option) read⟩

/-- A word behind two dashes is the option of its name; what is behind an equals sign is the value. -/
theorem exists_takes_of_readLong {rest : List Char} (ended : level.optionsEnded = false)
    (nonempty : rest ≠ []) (same : word.toList = '-' :: '-' :: rest)
    (read : level.readLong (String.ofList (rest.takeWhile (· != '=')))
      (behindName (rest.dropWhile (· != '='))) = .ok level') :
    ∃ parts, Takes level word parts level' := by
  have dashes : word.toList ≠ ['-', '-'] := by
    rw [same]
    simp [nonempty]
  have option : optionOf? word.toList =
      (Flag.ofLong? (String.ofList (rest.takeWhile (· != '=')))).map
        (·, behindName (rest.dropWhile (· != '='))) := by
    rw [same, optionOf?]
  unfold readLong at read
  split at read
  · cases read
  · case h_2 flag known none =>
    rw [known, none] at option
    exact exists_takes_of_readAlone ended dashes option read
  · case h_3 flag value known some =>
    rw [known, some] at option
    split at read
    · exact ⟨_, takes_of_readWithValue ended dashes option read⟩
    · cases read

/-- A word behind the two dashes that end the options is no option. -/
theorem takes_of_ended (ended : level.optionsEnded = true) (read : level.readWord word = .ok level') :
    Takes level word [.word word] level' := by
  rw [readWord, if_pos ended] at read
  refine takes_of_readPlain read ?_
  intro _ rest
  rw [itemsOf_of_ended ended, itemsOf_of_ended ended, List.map_cons]

/-- A word that begins with no dash, or is nothing but a dash, is the value that is awaited or no
option. -/
theorem exists_takes_of_plain (ended : level.optionsEnded = false) (dashes : word.toList ≠ ['-', '-'])
    (plain : optionOf? word.toList = none)
    (read : (match level.pending with
      | some (.flag flag, none) => return { level with pending := some (.flag flag, some word) }
      | _ => level.readPlain word) = .ok level') :
    ∃ parts, Takes level word parts level' := by
  split at read
  · case h_1 flag awaiting =>
    cases read
    refine ⟨[.option flag (some word)], ?_, ?_, rfl, by simp [Item.isOption]⟩
    · intro rest
      simp [itemsOf, ended, awaiting]
    · simp only [roots, awaiting, named, List.append_nil, List.filterMap_cons, List.filterMap_nil]
      cases (Item.option flag (some word)).root? <;> rfl
  · refine ⟨_, takes_of_readPlain read ?_⟩
    intro idle rest
    rw [itemsOf_of_not_awaiting ended idle, itemsOf_of_not_awaiting ended idle,
      items_plain dashes plain]

/-- The options have ended while a value is awaited. -/
def Stuck (level : Level) : Prop :=
  level.optionsEnded = true ∧ level.isAwaiting = true

/-- A level takes a word in, unless the word ends the options and a value is awaited. -/
theorem takes_or_stuck (read : level.readWord word = .ok level') :
    (∃ parts, Takes level word parts level') ∨ Stuck level' := by
  cases ended : level.optionsEnded with
  | true => exact .inl ⟨_, takes_of_ended ended read⟩
  | false =>
    rw [readWord, if_neg (Bool.eq_false_iff.mp ended)] at read
    split at read
    · case h_1 dashes =>
      cases read
      cases awaiting : level.isAwaiting with
      | true => exact .inr ⟨rfl, awaiting⟩
      | false =>
        refine .inl ⟨[], ?_, (List.append_nil _).symm, rfl, by simp⟩
        intro rest
        rw [itemsOf_of_not_awaiting ended awaiting, items, if_pos dashes]
        rfl
    · case h_2 rest nonempty same =>
      exact .inl (exists_takes_of_readLong ended (fun none => nonempty (none ▸ rfl)) same read)
    · case h_3 letter rest other single same =>
      exact .inl (exists_takes_of_readShort ended single same read)
    · case h_4 dashes long short =>
      have plain : optionOf? word.toList = none := by
        unfold optionOf?
        split
        · case h_1 rest same => exact absurd same (long rest)
        · case h_2 letter rest _ same => exact absurd same (short letter rest)
        · rfl
      exact .inl (exists_takes_of_plain ended dashes plain read)

/-! ### A whole level -/

/-- Where the options have ended while a value is awaited no reading comes to an end. -/
theorem Stuck.not_read (stuck : Stuck level) : level.readWord word ≠ .ok level' := by
  intro read
  obtain ⟨ended, awaiting⟩ := stuck
  rw [readWord, if_pos ended, readPlain] at read
  split at read
  · obtain ⟨middle, resolved, -⟩ := exists_of_bind_eq_ok read
    rw [(Resolves.of_resolved resolved).idle] at awaiting
    cases awaiting
  · split at read <;> cases read

/-- A level that is read to its end has the roots that were there and those that are named in what is
read. -/
theorem sources_of_read {level'' : Level} (read : words.foldlM readWord level = .ok level')
    (resolved : level'.resolved = .ok level'') :
    level''.given.sources = level.roots ++ named (level.itemsOf words) := by
  induction words generalizing level with
  | nil =>
    obtain rfl := Except.ok.inj read
    have resolves := Resolves.of_resolved resolved
    have none : named (level.itemsOf []) = [] := by
      cases ended : level.optionsEnded with
      | true => rw [itemsOf_of_ended ended, named_words]
      | false =>
        rw [itemsOf_of_not_awaiting ended resolves.idle]
        rfl
    rw [resolves.sources, none, List.append_nil]
  | cons word words ih =>
    rw [List.foldlM_cons] at read
    obtain ⟨middle, first, others⟩ := exists_of_bind_eq_ok read
    rcases takes_or_stuck first with ⟨parts, takes⟩ | stuck
    · rw [ih others, takes.roots, takes.items, named_append, List.append_assoc]
    · exfalso
      cases words with
      | nil =>
        cases others
        have idle := (Resolves.of_resolved resolved).idle
        rw [stuck.2] at idle
        cases idle
      | cons next words =>
        rw [List.foldlM_cons] at others
        obtain ⟨_, second, -⟩ := exists_of_bind_eq_ok others
        exact stuck.not_read second

end Level

/-! ### The two levels -/

variable {words : List String} {invocation : Invocation}

/-- What is read behind a command are the parts behind it. -/
theorem sources_of_readBehind {verb : Verb} {given : Given} {command : Command}
    (read : readBehind verb words = .ok (given, command)) :
    given.sources = named (items words) := by
  obtain ⟨level, folded, rest⟩ := exists_of_bind_eq_ok read
  obtain ⟨last, resolved, done⟩ := exists_of_bind_eq_ok rest
  have sources := Level.sources_of_read folded resolved
  split at done
  · cases done
    exact sources
  · cases done

/-- Where the options have ended and no word is taken in there comes no command. -/
theorem not_read_of_refused {level : Level} (ended : level.optionsEnded = true)
    (refused : ∀ word next, level.readWord word ≠ .ok next) :
    readBefore level words ≠ .ok invocation := by
  intro read
  cases words with
  | nil =>
    obtain ⟨last, -, nothing⟩ := exists_of_bind_eq_ok read
    cases nothing
  | cons word rest =>
    simp only [readBefore, ended, Bool.true_or, if_true] at read
    obtain ⟨next, taken, -⟩ := exists_of_bind_eq_ok read
    exact refused word next taken

/-- The word of a command is no option. -/
theorem Verb.items_cons {word : String} {verb : Verb} (known : Verb.ofName? word = some verb)
    (rest : List String) : items (word :: rest) = .word word :: items rest := by
  unfold Verb.ofName? at known
  have found := List.find?_some known
  rw [← eq_of_beq found]
  refine items_plain ?_ ?_ rest
  · cases verb <;> decide
  · cases verb <;> decide

/-- The roots of the level before the command and those of what is left to be read: either all that is
named behind the command, or all that is named before it. -/
theorem sources_of_readBefore {level : Level} (program : level.topic = .program)
    (read : readBefore level words = .ok invocation) :
    invocation.sources =
      if named ((level.itemsOf words).dropWhile Item.isOption) = [] then
        level.roots ++ named ((level.itemsOf words).takeWhile Item.isOption)
      else named ((level.itemsOf words).dropWhile Item.isOption) := by
  induction words generalizing level with
  | nil =>
    obtain ⟨last, -, nothing⟩ := exists_of_bind_eq_ok read
    cases nothing
  | cons word rest ih =>
    unfold readBefore at read
    split at read
    · cases read
    · case h_2 verb _ known =>
      split at known
      · cases known
      · case isFalse open_ =>
        rw [Bool.or_eq_true, not_or] at open_
        obtain ⟨ended, idle⟩ := open_
        -- The word is the command: what stood before it is in the level, the rest is behind it.
        obtain ⟨⟨behind, command⟩, second, more⟩ := exists_of_bind_eq_ok read
        obtain ⟨first, resolved, done⟩ := exists_of_bind_eq_ok more
        have before := (Level.Resolves.of_resolved resolved).sources
        have after := sources_of_readBehind second
        have parts : level.itemsOf (word :: rest) = .word word :: items rest := by
          rw [Level.itemsOf_of_not_awaiting (Bool.eq_false_iff.mpr ended) (Bool.eq_false_iff.mpr idle),
            Verb.items_cons known]
        cases done
        rw [parts, List.takeWhile_cons_of_neg Bool.false_ne_true,
          List.dropWhile_cons_of_neg Bool.false_ne_true, named_word_cons]
        simp [Given.invocation, Given.under, before, after, List.isEmpty_iff, named]
    · case h_3 none =>
      obtain ⟨next, taken, others⟩ := exists_of_bind_eq_ok read
      rcases Level.takes_or_stuck taken with ⟨parts, takes⟩ | stuck
      · have options := takes.options program
        rw [ih (takes.topic.trans program) others, takes.roots, takes.items,
          List.takeWhile_append_of_pos options, List.dropWhile_append_of_pos options,
          named_append, List.append_assoc]
      · exact absurd others (not_read_of_refused stuck.1 fun _ _ => stuck.not_read)

/-- **The roots of an accepted command line** are those named behind the command, in their order, or
if none is named there those named before it. So none is lost exactly if they are not named on both
sides, and a class path begins with the roots that are kept. -/
theorem sources_of_accepted (accepted : parse words = .ok invocation) :
    (invocation.sources =
      if namedBehind words = [] then namedBefore words else namedBehind words) ∧
    (invocation.sources = named (items words) ↔ namedBefore words = [] ∨ namedBehind words = []) ∧
    ∀ (home : Option String) (disk : Files.Disk) (classpath : Classpath),
      classpathOf invocation home disk = .ok classpath → invocation.sources <+: classpath.roots := by
  have kept : invocation.sources =
      if namedBehind words = [] then namedBefore words else namedBehind words :=
    sources_of_readBefore rfl accepted
  refine ⟨kept, ?_, ?_⟩
  · rw [kept, named_items]
    split
    · case isTrue none => simp [none]
    · case isFalse some => simp [some]
  · intro home disk classpath found
    rcases classpathOf_cases { words := words, home, disk } invocation with
      ⟨same, -⟩ | ⟨failure, failed, -⟩
    · cases found.symm.trans same
      exact List.prefix_append _ _
    · cases found.symm.trans failed

/-- Roots in each of the five spellings, all behind the command. -/
def spelled : List String :=
  ["supertype", "-s", "a", "-sb", "a.B", "-s=c", "--source", "d", "--source=e"]

/-- They are all kept, in their order. -/
theorem sources_spelled :
    ∃ invocation, parse spelled = .ok invocation ∧
      invocation.sources = [⟨"a"⟩, ⟨"b"⟩, ⟨"c"⟩, ⟨"d"⟩, ⟨"e"⟩] := by
  have accepted : parse spelled = .ok
      { command := .ask (.superclass "a.B")
        sources := [⟨"a"⟩, ⟨"b"⟩, ⟨"c"⟩, ⟨"d"⟩, ⟨"e"⟩] } := by
    decide
  obtain ⟨kept, -, -⟩ := sources_of_accepted accepted
  exact ⟨_, accepted, kept.trans (by decide)⟩

/-- **A root that is named before the command is lost if another is named behind it.** -/
theorem source_before_command_lost :
    ¬ ∀ (words : List String) (invocation : Invocation), parse words = .ok invocation →
      invocation.sources = named (items words) := by
  intro claimed
  have accepted : parse ["-s", "a", "supertype", "a.B", "-s", "b"] =
      .ok { command := .ask (.superclass "a.B"), sources := [⟨"b"⟩] } := by
    decide
  have lost : [(⟨"b"⟩ : Files.Path)] ≠ named (items ["-s", "a", "supertype", "a.B", "-s", "b"]) := by
    decide
  exact lost (claimed _ _ accepted)

end TypeLineage.CommandLine
