import Dataflow.Text.Ends

/-!
# Arguments of a command line

* An option is a word after two hyphens. Its value follows an equals sign or is the next argument;
  then it must not start with a hyphen, a lone one apart.
* A flag is an option without a value.
* All other arguments are plain, and so is everything after two lone hyphens.

`Grammar.scan` sorts arguments by a grammar and stops at the first that does not fit. Where a
grammar leads to a command, the first plain argument is its name and ends the scan.
-/

namespace Dataflow.CommandLine

/-! ## Words -/

/-- The form of an argument. -/
inductive Word where
  | separator
  | long (name : String) (attached : Option String)
  | short (letters : List Char)
  | plain
  deriving DecidableEq, Repr

/-- The name of an option and the value after an equals sign. -/
def splitOption (cs : List Char) : Word :=
  let name := String.ofList (cs.takeWhile (· != '='))
  match cs.dropWhile (· != '=') with
  | [] => .long name none
  | _ :: value => .long name (some (String.ofList value))

/-- The form of an argument. -/
def Word.ofText (text : String) : Word :=
  match text.toList with
  | ['-', '-'] => .separator
  | '-' :: '-' :: rest => splitOption rest
  | '-' :: c :: rest => .short (c :: rest)
  | _ => .plain

/-! ## Grammars -/

/-- An option with a value. -/
structure ValueOption where
  name : String
  /-- The option takes a value. -/
  accepts : String → Bool
  /-- The option may stand more than once. -/
  mayRepeat : Bool

/-- What may stand on a command line. -/
structure Grammar where
  options : List ValueOption
  flags : List String
  /-- The greatest number of plain arguments. -/
  room : Nat
  /-- The first plain argument names a command. -/
  leadsToCommand : Bool

/-- What stands on a command line. -/
structure Given where
  values : List (String × String)
  flags : List String
  plain : List String

/-- Why a scan ends early. -/
inductive Stop where
  | misuse
  | help
  | version
  deriving DecidableEq, Repr

namespace Given

/-- Nothing. -/
def empty : Given := ⟨[], [], []⟩

/-- The value of an option. -/
def value? (given : Given) (name : String) : Option String :=
  given.values.lookup name

/-- The values of an option, in order. -/
def valuesOf (given : Given) (name : String) : List String :=
  (given.values.filter fun entry => entry.1 == name).map Prod.snd

/-- A flag is given. -/
def hasFlag (given : Given) (name : String) : Bool :=
  given.flags.contains name

end Given

namespace Grammar

/-- One more plain argument. -/
def addPlain (grammar : Grammar) (given : Given) (text : String) : Except Stop Given :=
  if given.plain.length < grammar.room then .ok { given with plain := given.plain ++ [text] }
  else .error .misuse

/-- One more flag. -/
def addFlag (given : Given) (name : String) : Except Stop Given :=
  if given.hasFlag name then .error .misuse else .ok { given with flags := name :: given.flags }

/-- One more value of an option. -/
def addValue (grammar : Grammar) (given : Given) (name value : String) : Except Stop Given :=
  match grammar.options.find? fun option => option.name == name with
  | none => .error .misuse
  | some option =>
    if option.accepts value && (option.mayRepeat || (given.value? name).isNone) then
      .ok { given with values := given.values ++ [(name, value)] }
    else .error .misuse

/-- The answer to letters after a hyphen. Only help and version have letters. -/
def stopAt (grammar : Grammar) : List Char → Stop
  | 'h' :: _ => .help
  | 'V' :: _ => if grammar.leadsToCommand then .version else .misuse
  | _ => .misuse

/-- The answer to an option without a value, if it ends the scan. -/
def stopAtName? (grammar : Grammar) (name : String) : Option Stop :=
  if name = "help" then some .help
  else if name = "version" ∧ grammar.leadsToCommand then some .version
  else none

/-- Sort arguments. The second result is the rest from the name of a command on. -/
def scan (grammar : Grammar) (given : Given) : List String → Except Stop (Given × List String)
  | [] => .ok (given, [])
  | argument :: rest =>
    match Word.ofText argument with
    | .separator =>
      if grammar.leadsToCommand then .error .misuse
      else (rest.foldlM grammar.addPlain given).map fun given => (given, [])
    | .plain =>
      if grammar.leadsToCommand then .ok (given, argument :: rest)
      else (grammar.addPlain given argument).bind fun given => grammar.scan given rest
    | .short letters => .error (grammar.stopAt letters)
    | .long name (some value) =>
      (grammar.addValue given name value).bind fun given => grammar.scan given rest
    | .long name none =>
      if grammar.flags.contains name then
        (addFlag given name).bind fun given => grammar.scan given rest
      else
        match grammar.stopAtName? name, rest with
        | some stop, _ => .error stop
        | none, [] => .error .misuse
        | none, value :: rest =>
          if Word.ofText value = .plain then
            (grammar.addValue given name value).bind fun given => grammar.scan given rest
          else .error .misuse

end Grammar

end Dataflow.CommandLine
