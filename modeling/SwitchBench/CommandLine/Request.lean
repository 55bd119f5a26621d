import SwitchBench.Limits

/-!
# Command lines

What the arguments of the program ask for. Arguments are taken in order, and the first of them that
asks for help or for the version, or that is wrong, decides.

An option has a long name and perhaps a letter. Its value follows it as the next argument, unless it
is attached: after an equals sign, or right after the letter. Letters can share a dash. No option
may be given twice, and there are no arguments but options.
-/

namespace SwitchBench

/-- What a run of the program is told. -/
structure RunOptions where
  settingsPath : String
  passes : Option Nat
  verbose : Bool
  json : Bool
  deriving DecidableEq, Repr

/-- What a command line asks for. -/
inductive Request where
  | run (o : RunOptions)
  | help
  | version
  | misuse
  deriving DecidableEq, Repr

/-- An option of the command line. -/
inductive CommandOption where
  | settings
  | passes
  | verbose
  | json
  | help
  | version
  deriving DecidableEq, Repr

namespace CommandOption

def all : List CommandOption := [settings, passes, verbose, json, help, version]

def longName : CommandOption → String
  | settings => "config"
  | passes => "passes"
  | verbose => "verbose"
  | json => "json"
  | help => "help"
  | version => "version"

def letter? : CommandOption → Option Char
  | settings => some 'c'
  | passes => none
  | verbose => some 'v'
  | json => none
  | help => some 'h'
  | version => some 'V'

/-- Does the option need a value? -/
def needsValue : CommandOption → Bool
  | settings | passes => true
  | _ => false

end CommandOption

/-- What the arguments so far have set. -/
structure ArgumentState where
  settingsPath : Option String
  passes : Option Nat
  verbose : Bool
  json : Bool
  deriving DecidableEq, Repr

namespace ArgumentState

def initial : ArgumentState := ⟨none, none, false, false⟩

/-- The options of a run, where nothing else was set the standard ones. -/
def options (s : ArgumentState) : RunOptions :=
  ⟨s.settingsPath.getD "config/keypecker.toml", s.passes, s.verbose, s.json⟩

/-- The count that an argument writes: digits, perhaps after a plus sign. -/
def count? (word : String) : Option Nat :=
  let digits := match word.toList with
    | '+' :: rest => rest
    | chars => chars
  if digits.isEmpty || !digits.all Char.isDigit then none
  else
    let n := digits.foldl (fun n c => 10 * n + (c.toNat - '0'.toNat)) 0
    if n ≤ Limits.countMax then some n else none

/-- Uses an option, with the value it needs; refuses it a second time. -/
def use (s : ArgumentState) (o : CommandOption) (value : String) : Except Request ArgumentState :=
  match o with
  | .settings =>
    if s.settingsPath.isSome || value = "" then .error .misuse
    else .ok { s with settingsPath := some value }
  | .passes =>
    match s.passes, count? value with
    | none, some n => .ok { s with passes := some n }
    | _, _ => .error .misuse
  | .verbose => if s.verbose then .error .misuse else .ok { s with verbose := true }
  | .json => if s.json then .error .misuse else .ok { s with json := true }
  | .help => .error .help
  | .version => .error .version

/-- Uses the options whose letters share a dash. If the last one needs a value that is not
attached, that option is left to be used. -/
def useLetters : List Char → ArgumentState → Except Request (ArgumentState × Option CommandOption)
  | [], s => .ok (s, none)
  | c :: rest, s =>
    match CommandOption.all.find? (·.letter? = some c) with
    | none => .error .misuse
    | some o =>
      if o.needsValue then
        match rest with
        | [] => .ok (s, some o)
        | '=' :: value => (s.use o (String.ofList value)).map (·, none)
        | value => (s.use o (String.ofList value)).map (·, none)
      else do useLetters rest (← s.use o "")

/-- Uses an option by its long name. If it needs a value that is not attached, it is left to be
used. -/
def useLong (word : List Char) (s : ArgumentState) :
    Except Request (ArgumentState × Option CommandOption) :=
  let (name, rest) := word.span (· ≠ '=')
  match CommandOption.all.find? (·.longName = String.ofList name), rest with
  | none, _ => .error .misuse
  | some o, [] => if o.needsValue then .ok (s, some o) else (s.use o "").map (·, none)
  | some o, _ :: value =>
    if o.needsValue then (s.use o (String.ofList value)).map (·, none) else .error .misuse

/-- Uses one argument. -/
def useArgument (argument : String) (s : ArgumentState) :
    Except Request (ArgumentState × Option CommandOption) :=
  match argument.toList with
  | '-' :: '-' :: word => s.useLong word
  | '-' :: c :: rest => s.useLetters (c :: rest)
  | _ => .error .misuse

/-- Can an argument be the value of the option before it? -/
def isValue (argument : String) : Bool :=
  match argument.toList with
  | '-' :: _ :: _ => false
  | _ => true

/-- Uses all arguments. An argument of two dashes ends the options, and nothing may follow it. -/
def useAll : List String → ArgumentState → Request
  | [], s => .run s.options
  | a :: rest, s =>
    if a = "--" then if rest.isEmpty then .run s.options else .misuse
    else
      match s.useArgument a, rest with
      | .error r, _ => r
      | .ok (s, none), rest => useAll rest s
      | .ok (_, some _), [] => .misuse
      | .ok (s, some o), value :: rest =>
        if isValue value then
          match s.use o value with
          | .error r => r
          | .ok s => useAll rest s
        else .misuse

end ArgumentState

/-- What the arguments of a command line ask for. -/
def Request.ofArguments (arguments : List String) : Request :=
  ArgumentState.useAll arguments .initial

end SwitchBench
