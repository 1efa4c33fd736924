import LivePage.App.Config

/-!
# Command line arguments

What the words of a command line ask for. A program or a command has options, of which each may be
given once before or after the other words, and takes the words that are left in order. After `--`
no word is an option.

* `Parsed`: options with their values, and the other words.
* `Invocation.ofArgs`: the command that is asked for, a help text, or nothing that makes sense.
-/

namespace LivePage

namespace CommandLine

/-- An option: its long name, its letter if it has one, and whether a value follows. -/
structure OptionSpec where
  long : String
  letter : Option Char
  takesValue : Bool
deriving DecidableEq

/-- The option that every command has. -/
def helpOption : OptionSpec := ⟨"help", some 'h', false⟩

/-- Options that were given, with their values, and the other words in order. -/
structure Parsed where
  options : List (String × String)
  words : List String
deriving DecidableEq

/-- Why reading arguments ends early. -/
inductive Stop
  /-- Help is asked for. -/
  | help
  /-- The arguments make no sense. -/
  | usage
deriving DecidableEq

namespace Parsed

/-- No arguments. -/
def empty : Parsed := ⟨[], []⟩

/-- The value of an option. -/
def value? (p : Parsed) (name : String) : Option String := KeyMap.lookup name p.options

/-- Whether an option was given. -/
def has (p : Parsed) (name : String) : Bool := (p.value? name).isSome

end Parsed

/-- What a word at its place is. -/
inductive Word
  /-- The end of the options. -/
  | endOfOptions
  /-- A long option, with a value if one is attached. -/
  | long (name : String) (attached : Option String)
  /-- A letter, with the text that is attached to it. -/
  | letter (letter : Char) (attached : List Char)
  | plain (text : String)
deriving DecidableEq

/-- The text before the first equals sign, and the text after it if there is one. -/
def splitEquals : List Char → List Char × Option (List Char)
  | [] => ([], none)
  | c :: cs =>
    if c = '=' then ([], some cs)
    else
      let (name, value) := splitEquals cs
      (c :: name, value)

/-- A word by its beginning; a single hyphen is a plain word. -/
def Word.ofString (s : String) : Word :=
  match s.toList with
  | ['-', '-'] => .endOfOptions
  | '-' :: '-' :: cs =>
    let (name, value) := splitEquals cs
    .long (String.ofList name) (value.map String.ofList)
  | '-' :: c :: cs => .letter c cs
  | _ => .plain s

/-- Whether a word may be the value of the option before it. -/
def isValueWord (s : String) : Bool :=
  match Word.ofString s with
  | .plain _ => true
  | _ => false

/-- How a value is checked. -/
abbrev ValueCheck := String → String → Bool

/-- Adds an option that was given. It must not have been given before, and its value must pass. -/
def Parsed.give (check : ValueCheck) (p : Parsed) (name value : String) : Except Stop Parsed :=
  if p.has name || !check name value then .error .usage
  else .ok { p with options := p.options ++ [(name, value)] }

/-- Reads an option, given its specification, the text attached to it, and the words after it.
Returns how many of those words it takes. -/
def readOption (check : ValueCheck) (p : Parsed) (spec : OptionSpec) (attached : Option String)
    (rest : List String) : Except Stop (Parsed × Nat) :=
  if spec.takesValue then
    match attached, rest with
    | some value, _ => (p.give check spec.long value).map (·, 0)
    | none, next :: _ =>
      if isValueWord next then (p.give check spec.long next).map (·, 1) else .error .usage
    | none, [] => .error .usage
  else if attached.isSome then .error .usage
  else if spec = helpOption then .error .help
  else (p.give check spec.long "").map (·, 0)

/-- What is attached to a letter; an equals sign between them is left out. -/
def attachedTo : List Char → Option String
  | [] => none
  | '=' :: cs => some (String.ofList cs)
  | cs => some (String.ofList cs)

/-- Reads words up to a limit on plain ones, beyond which there may be none if `exact`, and at which
reading ends otherwise; `skip` leading words belong to an option before them. Returns the words that
are left. -/
def readWords (specs : List OptionSpec) (check : ValueCheck) (limit : Nat) (exact literal : Bool) :
    Nat → Parsed → List String → Except Stop (Parsed × List String)
  | _, p, [] => .ok (p, [])
  | skip + 1, p, _ :: rest => readWords specs check limit exact literal skip p rest
  | 0, p, s :: rest =>
    let plain (_ : Unit) : Except Stop (Parsed × List String) :=
      if p.words.length < limit then
        if check "" s then
          readWords specs check limit exact literal 0 { p with words := p.words ++ [s] } rest
        else .error .usage
      else if exact || literal then .error .usage
      else .ok (p, s :: rest)
    if literal then plain ()
    else
      match Word.ofString s with
      | .plain _ => plain ()
      | .endOfOptions => readWords specs check limit exact true 0 p rest
      | .long name attached =>
        match specs.find? fun spec => spec.long == name with
        | none => .error .usage
        | some spec =>
          match readOption check p spec attached rest with
          | .error stop => .error stop
          | .ok (p, taken) => readWords specs check limit exact literal taken p rest
      | .letter c cs =>
        match specs.find? fun spec => spec.letter == some c with
        | none => .error .usage
        | some spec =>
          let attached := if spec.takesValue then attachedTo cs else none
          match readOption check p spec attached rest with
          | .error stop => .error stop
          | .ok (p, taken) => readWords specs check limit exact literal taken p rest

/-! ## The commands -/

/-- What a rendering is written as. -/
inductive Format
  | html
  | json
deriving DecidableEq

/-- What is to be done. -/
inductive Command
  | render (page : String) (engine : Option EvaluatorKind) (fetch : Bool) (format : Format)
      (output : Option String)
  | components
  | sync (request : String) (target : Option String)
deriving DecidableEq

/-- What help is about. -/
inductive Topic
  | program
  | render
  | components
  | sync
  | help
deriving DecidableEq

/-- A command with the settings file to use, or a call for help. -/
inductive Invocation
  | run (config : String) (command : Command)
  | help (topic : Topic)
deriving DecidableEq

/-- The names of engines. -/
def engines : List (String × EvaluatorKind) := [("path", .path), ("js", .js)]

/-- The names of formats. -/
def formats : List (String × Format) := [("html", .html), ("json", .json)]

/-- Values are not empty; those of `engine` and `format` are names of one. -/
def checkValue : ValueCheck := fun name value =>
  if name = "engine" then (KeyMap.lookup value engines).isSome
  else if name = "format" then (KeyMap.lookup value formats).isSome
  else if name = "fetch" then true
  else !value.isEmpty

/-- The options of the program itself. -/
def programOptions : List OptionSpec := [⟨"config", none, true⟩, helpOption]

/-- The options of `render`. -/
def renderOptions : List OptionSpec :=
  [⟨"engine", none, true⟩, ⟨"fetch", none, false⟩, ⟨"format", none, true⟩,
   ⟨"output", some 'o', true⟩, helpOption]

/-- The options of `sync`. -/
def syncOptions : List OptionSpec := [⟨"target", none, true⟩, helpOption]

/-- Reads the arguments of a command that takes some plain words. -/
def readCommand (topic : Topic) (specs : List OptionSpec) (words : Nat) (args : List String)
    (build : Parsed → Option Command) (config : String) : Option Invocation :=
  match readWords specs checkValue words true false 0 Parsed.empty args with
  | .error .help => some (.help topic)
  | .error .usage => none
  | .ok (p, _) => (build p).map (.run config)

/-- The rendering that arguments ask for. -/
def renderOf (p : Parsed) : Option Command :=
  match p.words with
  | [page] =>
    some (.render page ((p.value? "engine").bind fun v => KeyMap.lookup v engines) (p.has "fetch")
      (((p.value? "format").bind fun v => KeyMap.lookup v formats).getD .html) (p.value? "output"))
  | _ => none

/-- The synchronisation that arguments ask for. -/
def syncOf (p : Parsed) : Option Command :=
  match p.words with
  | [request] => some (.sync request (p.value? "target"))
  | _ => none

/-- The topic of a command's name. -/
def topic? (name : String) : Option Topic :=
  KeyMap.lookup name
    [("render", .render), ("components", .components), ("sync", .sync), ("help", .help)]

/-- What the words after the program's own options ask for. -/
def Invocation.ofCommand (config : String) : List String → Option Invocation
  | [] => none
  | name :: args =>
    match topic? name with
    | some .render => readCommand .render renderOptions 1 args renderOf config
    | some .components =>
      readCommand .components [helpOption] 0 args (fun _ => some .components) config
    | some .sync => readCommand .sync syncOptions 1 args syncOf config
    | some .help =>
      match args with
      | [] => some (.help .program)
      | [name] => (topic? name).map .help
      | _ => none
    | some .program => none
    | none => none

/-- What arguments ask for, if they make sense. -/
def Invocation.ofArgs (args : List String) : Option Invocation :=
  match readWords programOptions checkValue 0 false false 0 Parsed.empty args with
  | .error .help => some (.help .program)
  | .error .usage => none
  | .ok (p, rest) => ofCommand ((p.value? "config").getD "engine.json") rest

end CommandLine

end LivePage
