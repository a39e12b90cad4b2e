import Scaffold.Switch
import Scaffold.Text.Quoted

/-!
# Flags

The flags of a command stand in front of its operands.  A flag is written with
one or two dashes.  A flag with a text takes it after an equals sign or from the
next argument.  A switch is turned on by its name alone and set after an equals
sign.  Flags end at the first argument that does not start with a dash, at a
single dash, and after two dashes.
-/

namespace Scaffold

/-- What a flag holds. -/
inductive FlagValue where
  | text (value : String)
  | switch (value : Bool)
  deriving DecidableEq, Repr

/-- A flag of a command. -/
structure Flag where
  /-- The name without dashes. -/
  name : String
  /-- What it is for. -/
  usage : String
  /-- What it holds when it is not given. -/
  default : FlagValue
  deriving DecidableEq, Repr

/-- Why the arguments of a command cannot be used. -/
inductive FlagFault where
  | malformed (argument : String)
  | undefined (name : String)
  | noText (name : String)
  | badSwitch (value name : String)
  deriving DecidableEq, Repr

/-- What is said about a fault. -/
def FlagFault.message : FlagFault → String
  | .malformed argument => "bad flag syntax: " ++ argument
  | .undefined name => "flag provided but not defined: -" ++ name
  | .noText name => "flag needs an argument: -" ++ name
  | .badSwitch value name =>
    "invalid boolean value " ++ Text.quote value ++ " for -" ++ name ++ ": parse error"

/-- Why the flags of a command end its run. -/
inductive FlagStop where
  | help
  | fault (fault : FlagFault)
  deriving DecidableEq, Repr

/-- The default of a flag as its usage shows it. -/
def Flag.defaultText (f : Flag) : String :=
  match f.default with
  | .text "" | .switch false => ""
  | .text s => " (default " ++ Text.quote s ++ ")"
  | .switch true => " (default true)"

/-- The usage of a flag. -/
def Flag.usageText (f : Flag) : String :=
  "  -" ++ f.name ++ (match f.default with
    | .text _ => " string"
    | .switch _ => "") ++ "\n    \t" ++ f.usage ++ f.defaultText ++ "\n"

/-- The usage of a command with flags. -/
def usageOf (command : String) (flags : List Flag) : String :=
  "Usage of " ++ command ++ ":\n" ++ String.join (flags.map Flag.usageText)

/-! ## Arguments -/

/-- What an argument is. -/
inductive Argument where
  | operand
  | terminator
  | malformed
  | flag (name : String) (value : Option String)
  deriving DecidableEq, Repr

/-- A flag without its dashes.  An equals sign that is not in front divides name and value. -/
def flagArgument (body : List Char) : Argument :=
  match body with
  | [] | '-' :: _ | '=' :: _ => .malformed
  | body =>
    let name := String.ofList (body.takeWhile (· ≠ '='))
    match body.dropWhile (· ≠ '=') with
    | [] => .flag name none
    | _ :: value => .flag name (some (String.ofList value))

/-- What an argument is, by its dashes. -/
def Argument.ofString (argument : String) : Argument :=
  match argument.toList with
  | '-' :: '-' :: [] => .terminator
  | '-' :: '-' :: body => flagArgument body
  | '-' :: c :: body => flagArgument (c :: body)
  | _ => .operand

/-- The flags that were given with their values, and the operands. -/
structure Arguments where
  given : List (String × FlagValue) := []
  operands : List String := []
  deriving DecidableEq, Repr

/-- The flags and operands among arguments, after those in `given`. -/
def readArguments (flags : List Flag) (given : List (String × FlagValue)) :
    List String → Except FlagStop Arguments
  | [] => .ok ⟨given, []⟩
  | argument :: rest => match Argument.ofString argument with
    | .operand => .ok ⟨given, argument :: rest⟩
    | .terminator => .ok ⟨given, rest⟩
    | .malformed => .error (.fault (.malformed argument))
    | .flag name value => match flags.find? (·.name = name) with
      | none =>
        if name = "help" ∨ name = "h" then .error .help
        else .error (.fault (.undefined name))
      | some f => match f.default, value with
        | .switch _, none => readArguments flags (given ++ [(name, .switch true)]) rest
        | .switch _, some text => match readSwitch? text with
          | some b => readArguments flags (given ++ [(name, .switch b)]) rest
          | none => .error (.fault (.badSwitch text name))
        | .text _, some text => readArguments flags (given ++ [(name, .text text)]) rest
        | .text _, none => match rest with
          | [] => .error (.fault (.noText name))
          | text :: rest => readArguments flags (given ++ [(name, .text text)]) rest

/-- The text of a flag: the last one given, or else the default. -/
def Arguments.text (a : Arguments) (name default : String) : String :=
  a.given.foldl (fun value (n, v) => match v with
    | .text s => if n = name then s else value
    | .switch _ => value) default

/-- The state of a switch: the last one given, or else the default. -/
def Arguments.switch (a : Arguments) (name : String) (default : Bool) : Bool :=
  a.given.foldl (fun value (n, v) => match v with
    | .switch b => if n = name then b else value
    | .text _ => value) default

end Scaffold
