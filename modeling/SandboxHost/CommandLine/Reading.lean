import SandboxHost.CommandLine.Help
import SandboxHost.CommandLine.Invocation
import SandboxHost.Text.Numeral

namespace SandboxHost.CommandLine

inductive Reading where
  | wrong
  | help (t : Topic)
  | version
  | run (i : Invocation)

inductive Key where
  | maxMemory
  | fuel
  | dir
  | assignment
  | text

inductive Switch where
  | verbose
  | help
  | version

inductive Dash where
  | switch (s : Switch)
  | key (k : Key)

def longOption? : Option Verb → String → Option Dash
  | _, "verbose" => some (.switch .verbose)
  | _, "help" => some (.switch .help)
  | none, "version" => some (.switch .version)
  | _, "max-memory" => some (.key .maxMemory)
  | _, "fuel" => some (.key .fuel)
  | _, "dir" => some (.key .dir)
  | _, "env" => some (.key .assignment)
  | some .call, "string" => some (.key .text)
  | _, _ => none

def shortOption? : Option Verb → Char → Option Dash
  | _, 'v' => some (.switch .verbose)
  | _, 'h' => some (.switch .help)
  | none, 'V' => some (.switch .version)
  | some .call, 's' => some (.key .text)
  | _, _ => none

/-- What has been read before the name of the command, or after it. -/
structure Draft where
  verb : Option Verb
  settings : Settings := {}
  text : Option String := none
  /-- The plain words. -/
  words : List String := []
  /-- The option that waits for its value. -/
  waiting : Option Key := none
  /-- The value that came last, and has not been looked at yet. -/
  unread : Option (Key × String) := none
  /-- Whether all further words are plain. -/
  literal : Bool := false

namespace Draft

/-- Reading stops early when a word is wrong, or asks for something else than a command. -/
abbrev Step := Except Reading Draft

def once (present : Option UInt64) (word : String) : Except Reading (Option UInt64) :=
  match present, Numeral.uint64? word with
  | none, some n => .ok (some n)
  | _, _ => .error .wrong

def put (d : Draft) (k : Key) (value : String) : Step := do
  let s := d.settings
  match k with
  | .maxMemory =>
    let maxMegabytes ← once s.maxMegabytes value
    return { d with settings := { s with maxMegabytes } }
  | .fuel => return { d with settings := { s with fuel := ← once s.fuel value } }
  | .dir =>
    if value.isEmpty then throw .wrong
    return { d with settings := { s with dirs := s.dirs ++ [value] } }
  | .assignment => return { d with settings := { s with assignments := s.assignments ++ [value] } }
  | .text =>
    if d.text.isSome then throw .wrong
    return { d with text := some value }

def settle (d : Draft) : Step :=
  match d.unread with
  | some (k, value) => { d with unread := none }.put k value
  | none => .ok d

def topic (d : Draft) : Topic :=
  match d.verb with
  | some v => .command v
  | none => .program

/-- An option with what is attached to it. Another option must not wait for its value then. -/
def takeOption (d : Draft) (option : Dash) (attached : Option String) : Step := do
  if d.waiting.isSome then throw .wrong
  let d ← d.settle
  match option, attached with
  | .key k, some value => d.put k value
  | .key k, none => return { d with waiting := some k }
  | .switch _, some _ => throw .wrong
  | .switch .verbose, none => return d
  | .switch .help, none => throw (.help d.topic)
  | .switch .version, none => throw .version

/-- Several short options in one word; what follows one that takes a value is its value. -/
def takeShort (d : Draft) : List Char → Step
  | [] => .ok d
  | c :: rest =>
    match shortOption? d.verb c, rest with
    | none, _ => .error .wrong
    | some (.switch s), rest => do takeShort (← d.takeOption (.switch s) none) rest
    | some option, [] => d.takeOption option none
    | some option, '=' :: value => d.takeOption option (some (.ofList value))
    | some option, value => d.takeOption option (some (.ofList value))

def room (d : Draft) : Option Nat :=
  match d.verb with
  | none => some 0
  | some .constants => some 1
  | some _ => none

/-- A plain word, which may be the value that an option waits for. The first argument of a library
makes all further words plain. -/
def takePlain (d : Draft) (word : String) : Step := do
  match d.waiting with
  | some k => return { d with waiting := none, unread := some (k, word) }
  | none =>
    let d ← d.settle
    if d.words.isEmpty && word.isEmpty then throw .wrong
    if d.room.any (· ≤ d.words.length) then throw .wrong
    let words := d.words ++ [word]
    let inArguments := (d.verb == some .exec || d.verb == some .terminal) && 2 ≤ words.length
    return { d with words, literal := d.literal || inArguments }

def admitsDash (d : Draft) : Bool :=
  match d.verb with
  | some .call => 2 ≤ d.words.length
  | some .exec | some .terminal => 1 ≤ d.words.length
  | _ => false

/-- After the first number of a call, all words are numbers. -/
def inNumbers (d : Draft) : Bool := d.verb == some .call && 3 ≤ d.words.length

def takeLong (d : Draft) (word : String) (body : List Char) : Step :=
  let name := body.takeWhile (· ≠ '=')
  let attached := match body.drop name.length with
    | _ :: value => some (String.ofList value)
    | [] => none
  match longOption? d.verb (.ofList name) with
  | some option => d.takeOption option attached
  | none => if d.admitsDash then d.takePlain word else .error .wrong

def take (d : Draft) (word : String) : Step :=
  if d.literal || d.inNumbers then d.takePlain word
  else match word.toList with
    | ['-', '-'] =>
      if d.waiting.isSome || d.verb.isNone then .error .wrong else .ok { d with literal := true }
    | '-' :: '-' :: body => d.takeLong word body
    | '-' :: c :: rest =>
      if d.admitsDash && (c :: rest).any (shortOption? d.verb · |>.isNone) then d.takePlain word
      else d.takeShort (c :: rest)
    | _ => d.takePlain word

def takeAll (d : Draft) (words : List String) : Step := words.foldlM take d

def command? (d : Draft) (verb : Verb) : Option Command :=
  match verb, d.words with
  | .call, module :: function :: numbers =>
    (numbers.mapM Numeral.int64?).map (.call module function d.text)
  | .exec, module :: library :: args => some (.exec module library args)
  | .constants, [module] => some (.constants module)
  | .terminal, module :: args => some (.terminal module args)
  | _, _ => none

def finish (d earlier : Draft) (verb : Verb) : Reading :=
  match d.waiting, d.settle, earlier.settle with
  | none, .ok d, .ok earlier =>
    match d.command? verb with
    | some command => .run ⟨d.settings.orElse earlier.settings, command⟩
    | none => .wrong
  | _, _, _ => .wrong

end Draft

namespace Reading

/-- Commands have no commands of their own, so at most one word says what help is about. -/
def ofHelpWords : List String → Reading
  | [] => .help .program
  | ["help"] => .help .help
  | [word] =>
    match Verb.ofName? word with
    | some v => .help (.command v)
    | none => .wrong
  | _ => .wrong

def ofCommand (earlier : Draft) (verb : Verb) (words : List String) : Reading :=
  match ({ verb := some verb } : Draft).takeAll words with
  | .ok d => d.finish earlier verb
  | .error reading => reading

/-- Reads words up to the name of the command; a word that an option waits for is none. -/
def ofWordsFrom (d : Draft) : List String → Reading
  | [] => .wrong
  | word :: rest =>
    match d.waiting, word, Verb.ofName? word with
    | none, "help", _ => ofHelpWords rest
    | none, _, some verb => ofCommand d verb rest
    | _, _, _ =>
      match d.take word with
      | .ok d => ofWordsFrom d rest
      | .error reading => reading

def ofWords (words : List String) : Reading := ofWordsFrom { verb := none } words

end Reading

end SandboxHost.CommandLine
