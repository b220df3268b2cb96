import Deferral.Text.Number

/-!
Command lines: options, which start with a hyphen and may take a value, and words. A lone hyphen is a
word, and so is everything after a double one.
-/

namespace Deferral.CommandLine

inductive ValueKind where
  | switch
  | text
  /-- Text that is not empty. -/
  | path
  | number
  deriving DecidableEq, Repr

structure OptionSpec where
  long : String
  short : Option Char := none
  kind : ValueKind := .text
  deriving DecidableEq, Repr

inductive Stop where
  | usage
  | help
  deriving DecidableEq, Repr

/-- The options of a command line, with their values, the words, and what is left unread. -/
structure Reading where
  options : List (String × String) := []
  words : List String := []
  rest : List String := []
  deriving DecidableEq, Repr

structure Grammar where
  options : List OptionSpec
  maxWords : Nat
  /-- The first word names a command, and what follows it is left unread. -/
  stopsAtWord : Bool := false

namespace Reading

def value? (r : Reading) (long : String) : Option String := r.options.lookup long

def has (r : Reading) (long : String) : Bool := (r.value? long).isSome

def number? (r : Reading) (long : String) : Option Nat :=
  (r.value? long).bind fun s => (Text.word s).toOption

/-- Adds an option, which may be given only once and needs a fitting value. -/
def add (r : Reading) (spec : OptionSpec) (value : String) : Except Stop Reading :=
  let fits := match spec.kind with
    | .switch | .text => true
    | .path => value ≠ ""
    | .number => (Text.word value).toOption.isSome
  if r.has spec.long || !fits then .error .usage
  else .ok { r with options := r.options ++ [(spec.long, value)] }

def addWords (grammar : Grammar) (r : Reading) (words : List String) : Except Stop Reading :=
  if r.words.length + words.length > grammar.maxWords || (grammar.stopsAtWord && words ≠ []) then .error .usage
  else .ok { r with words := r.words ++ words }

end Reading

inductive Written where
  | word (text : String)
  | long (name : String) (value : Option String)
  | short (name : Char) (value : Option String)
  /-- What follows are words. -/
  | wordsFollow
  deriving DecidableEq, Repr

private def cutEquals : List Char → List Char × Option String
  | [] => ([], none)
  | '=' :: rest => ([], some (String.ofList rest))
  | c :: rest =>
    let (name, value) := cutEquals rest
    (c :: name, value)

def Written.ofText (argument : String) : Written :=
  match argument.toList with
  | ['-', '-'] => .wordsFollow
  | '-' :: '-' :: rest =>
    let (name, value) := cutEquals rest
    .long (String.ofList name) value
  | ['-', c] => .short c none
  | '-' :: c :: '=' :: rest => .short c (some (String.ofList rest))
  | '-' :: c :: rest => .short c (some (String.ofList rest))
  | _ => .word argument

/-- Help is asked for by a letter, whatever follows it, or by a word alone. -/
def Written.asksForHelp : Written → Bool
  | .long name value => name == "help" && value.isNone
  | .short name _ => name == 'h'
  | .word _ | .wordsFollow => false

private def find? (grammar : Grammar) : Written → Option (OptionSpec × Option String)
  | .long name value => (grammar.options.find? (·.long == name)).map (·, value)
  | .short name value => (grammar.options.find? (·.short == some name)).map (·, value)
  | .word _ | .wordsFollow => none

/-- Reads arguments from left to right, up to the first fault. An option takes the next argument as
its value if that does not look like an option. -/
def readFrom (grammar : Grammar) (r : Reading) : List String → Except Stop Reading
  | [] => .ok r
  | argument :: rest =>
    match Written.ofText argument with
    | .wordsFollow => r.addWords grammar rest
    | .word word =>
      if grammar.stopsAtWord then .ok { r with words := [word], rest }
      else do readFrom grammar (← r.addWords grammar [word]) rest
    | written =>
      if written.asksForHelp then .error .help
      else
        match find? grammar written with
        | none => .error .usage
        | some (spec, attached) =>
          if spec.kind = .switch then
            if attached.isSome then .error .usage
            else do readFrom grammar (← r.add spec "") rest
          else
            match attached with
            | some value => do readFrom grammar (← r.add spec value) rest
            | none =>
              match rest with
              | [] => .error .usage
              | next :: rest =>
                match Written.ofText next with
                | .word value => do readFrom grammar (← r.add spec value) rest
                | _ => .error .usage

def read (grammar : Grammar) (arguments : List String) : Except Stop Reading :=
  readFrom grammar {} arguments

end Deferral.CommandLine
