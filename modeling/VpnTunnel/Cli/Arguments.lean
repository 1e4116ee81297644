import VpnTunnel.Text.Cut

/-!
# Reading arguments

The options and words that a command line has. An option has a long name and may have a short one;
its value follows it, or is attached to it. Behind two dashes everything is a word. The reading goes
from left to right and ends at the first mistake, and at an option that asks for something else.
-/

namespace VpnTunnel.Cli

inductive OptionKind where
  /-- Takes a value that meets a condition. -/
  | value (accepts : String → Bool)
  | switch
  /-- Asks for the usage and nothing else. -/
  | help
  /-- Asks for the version and nothing else. -/
  | version

structure OptionSpec where
  long : String
  short : Option Char
  kind : OptionKind

/-- What an argument looks like. -/
inductive Shape where
  | word
  /-- Two dashes alone. -/
  | escape
  /-- An option with the value attached to it, if one is. -/
  | option (spec : OptionSpec) (attached : Option String)
  | unknown

/-- A value attached to a short option may have an equals sign in front. -/
def stripEquals : List Char → List Char
  | '=' :: r => r
  | r => r

def shape (specs : List OptionSpec) (arg : String) : Shape :=
  match arg.toList with
  | ['-', '-'] => .escape
  | '-' :: '-' :: rest =>
    let (name, attached) := match Text.cut? '=' rest with
      | some (name, value) => (name, some (String.ofList value))
      | none => (rest, none)
    match specs.find? (·.long == String.ofList name) with
    | some spec => .option spec attached
    | none => .unknown
  | '-' :: c :: rest =>
    match specs.find? (·.short == some c) with
    | some spec =>
      match spec.kind with
      | .value _ =>
        .option spec (if rest = [] then none else some (String.ofList (stripEquals rest)))
      | _ => .option spec none
    | none => .unknown
  | _ => .word

/-- Whether an argument can be the value of the option in front of it. -/
def canFollow (arg : String) : Bool :=
  match arg.toList with
  | '-' :: _ :: _ => false
  | _ => true

/-- The values of the options that were given; a switch has the empty text. -/
abbrev Given := List (String × String)

/-- What the words among arguments are. -/
inductive WordRule where
  /-- The first word is the name of a command. -/
  | command
  /-- Words that are accepted each by its position, counted from zero. -/
  | items (accepts : Nat → String → Bool)

/-- What the arguments of one command say. -/
inductive Reading where
  | done (given : Given) (words : List String)
  /-- The name of a command, and the arguments behind it. -/
  | command (given : Given) (name : String) (rest : List String)
  | help
  | version
  | mistake

/-- Adds an option, unless it is there already or its value is refused. -/
def addGiven (given : Given) (spec : OptionSpec) (value : String) : Option Given :=
  let accepted := match spec.kind with
    | .value accepts => accepts value
    | _ => true
  if (given.lookup spec.long).isSome || !accepted then none
  else some (given ++ [(spec.long, value)])

/-- Reads arguments behind those already read. -/
def readArguments (specs : List OptionSpec) (rule : WordRule) :
    Given → List String → List String → Reading
  | given, words, [] => .done given words
  | given, words, arg :: rest =>
    match shape specs arg with
    | .word =>
      match rule with
      | .command => .command given arg rest
      | .items accepts =>
        if accepts words.length arg then readArguments specs rule given (words ++ [arg]) rest
        else .mistake
    | .escape =>
      match rule with
      | .command => .mistake
      | .items _ => .done given (words ++ rest)
    | .unknown => .mistake
    | .option spec attached =>
      match spec.kind, attached with
      | .help, none => .help
      | .version, none => .version
      | .switch, none =>
        match addGiven given spec "" with
        | some given => readArguments specs rule given words rest
        | none => .mistake
      | .value _, some value =>
        match addGiven given spec value with
        | some given => readArguments specs rule given words rest
        | none => .mistake
      | .value _, none =>
        match rest with
        | value :: rest =>
          if canFollow value then
            match addGiven given spec value with
            | some given => readArguments specs rule given words rest
            | none => .mistake
          else .mistake
        | [] => .mistake
      | _, some _ => .mistake

end VpnTunnel.Cli
