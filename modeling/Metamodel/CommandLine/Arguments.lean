/-!
The arguments of a call.

A command follows the options that come before it. Options with a value take the next argument, or
what follows an equals sign, or for short options the rest of the same argument. Two hyphens end the
options.
-/

namespace Metamodel

inductive Command
  /-- Writes the generated code of all root packages or of those with one name. -/
  | generate (input : String) (output package : Option String)
  /-- Shows what is wrong with the loaded packages. -/
  | check (input : String) (strict : Bool)
  /-- Writes the model as data. -/
  | dump (input : String) (output : Option String)
  deriving DecidableEq, Repr

structure Invocation where
  /-- A settings file. -/
  settings : Option String := none
  command : Command
  deriving DecidableEq, Repr

namespace Arguments

inductive Flag
  | settings
  | output
  | package
  | strict
  deriving DecidableEq, Repr

namespace Flag

def all : List Flag := [.settings, .output, .package, .strict]

def long : Flag → String
  | .settings => "config"
  | .output => "output"
  | .package => "package"
  | .strict => "strict"

def short? : Flag → Option Char
  | .settings => some 'c'
  | .output => some 'o'
  | .package => some 'p'
  | .strict => none

def takesValue : Flag → Bool
  | .strict => false
  | _ => true

/-- Whether the value is a path, which must not be empty. -/
def isPath : Flag → Bool
  | .output => true
  | _ => false

end Flag

inductive Verb
  | generate
  | check
  | dump
  deriving DecidableEq, Repr

namespace Verb

def named? : String → Option Verb
  | "generate" => some .generate
  | "check" => some .check
  | "dump" => some .dump
  | _ => none

/-- The options that a command has. -/
def flags : Verb → List Flag
  | .generate => [.settings, .output, .package]
  | .check => [.settings, .strict]
  | .dump => [.settings, .output]

end Verb

/-- What has been read of the arguments. -/
structure Parsed where
  flags : List (Flag × String) := []
  plain : List String := []

/-- Whether an argument looks like an option. -/
def isOption (argument : String) : Bool := argument.startsWith "-" && argument ≠ "-"

/-- Adds an option, unless it is there already. -/
def Parsed.addFlag? (p : Parsed) (flag : Flag) (value : String) : Option Parsed :=
  if (p.flags.lookup flag).isSome || (flag.isPath && value = "") then none
  else some { p with flags := p.flags ++ [(flag, value)] }

/-- The option that an argument writes, and its value if that is in the same argument. -/
def option? (allowed : List Flag) (argument : String) : Option (Flag × Option String) :=
  match argument.toList with
  | '-' :: '-' :: long =>
    let name := String.ofList (long.takeWhile (· ≠ '='))
    let value :=
      match long.dropWhile (· ≠ '=') with
      | _ :: value => some (String.ofList value)
      | [] => none
    (allowed.find? fun flag => flag.long = name).map fun flag => (flag, value)
  | '-' :: letter :: rest =>
    let value :=
      match rest with
      | [] => none
      | '=' :: value => some (String.ofList value)
      | value => some (String.ofList value)
    (allowed.find? fun flag => flag.short? = some letter).map fun flag => (flag, value)
  | _ => none

/-- Reads options and plain arguments; `limit` plain ones end the reading. The arguments that are
left are given back. -/
def read? (allowed : List Flag) (limit : Nat) (p : Parsed) :
    List String → Option (Parsed × List String)
  | [] => some (p, [])
  | argument :: rest =>
    if p.plain.length = limit then some (p, argument :: rest)
    else if argument = "--" then
      let taken := rest.take (limit - p.plain.length)
      some ({ p with plain := p.plain ++ taken }, rest.drop taken.length)
    else if isOption argument then
      match option? allowed argument with
      | none => none
      | some (flag, some value) =>
        if flag.takesValue then (p.addFlag? flag value).bind fun p => read? allowed limit p rest
        else none
      | some (flag, none) =>
        if !flag.takesValue then (p.addFlag? flag "").bind fun p => read? allowed limit p rest
        else
          match rest with
          | value :: rest =>
            if isOption value then none
            else (p.addFlag? flag value).bind fun p => read? allowed limit p rest
          | [] => none
    else read? allowed limit { p with plain := p.plain ++ [argument] } rest

/-- The invocation that a command with its options makes. Options after the command win. -/
def invocation? (verb : Verb) (general : Parsed) (p : Parsed) : Option Invocation :=
  let settings := p.flags.lookup .settings <|> general.flags.lookup .settings
  let output := p.flags.lookup .output
  match p.plain with
  | [input] =>
    if input = "" then none
    else
      some ⟨settings,
        match verb with
        | .generate => .generate input output (p.flags.lookup .package)
        | .check => .check input (p.flags.lookup .strict).isSome
        | .dump => .dump input output⟩
  | _ => none

/-- The invocation that arguments write. -/
def parse? (arguments : List String) : Option Invocation := do
  let (general, rest) ← read? [.settings] 1 {} arguments
  match general.plain with
  | [name] =>
    let verb ← Verb.named? name
    let (p, surplus) ← read? verb.flags 2 {} rest
    if surplus.isEmpty then invocation? verb general p else none
  | _ => none

end Arguments

end Metamodel
