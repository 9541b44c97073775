import Tracepoint.Settings

/-!
# The command line

The arguments are read from left to right and the first problem ends the reading. A value
in its own argument is judged only when the next known option or the end is met, so an
unknown argument behind it is reported first; a value that is attached to its option is
judged at once.
-/

namespace Tracepoint

/-- The options of the command line. -/
inductive CommandOption where
  | apk
  | app
  | print
  | out
  | idStrategy
  | locationFormat
  | config
  | contentDir
  | forceExtract
  | debug
  | help
  | version
  deriving DecidableEq, Repr

namespace CommandOption

/-- The option of a long name. -/
def ofLong? : String → Option CommandOption
  | "apk" => some apk
  | "app" => some app
  | "print" => some print
  | "out" => some out
  | "id-strategy" => some idStrategy
  | "location-format" => some locationFormat
  | "config" => some config
  | "content-dir" => some contentDir
  | "force-extract" => some forceExtract
  | "debug" => some debug
  | "help" => some help
  | "version" => some version
  | _ => none

/-- The option of a letter. -/
def ofShort? (c : Char) : Option CommandOption :=
  if c = 'o' then some out
  else if c = 'c' then some config
  else if c = 'h' then some help
  else if c = 'V' then some version
  else none

/-- Whether the option has a value. -/
def takesValue : CommandOption → Bool
  | forceExtract | debug | help | version => false
  | _ => true

end CommandOption

/-- Why the command line gives no run. -/
inductive UsageFault where
  /-- No package is named. -/
  | missingRequired
  /-- A value is missing, empty where it must not be, or no known choice. -/
  | invalidValue
  /-- A value is not a truth value. -/
  | invalidFlag
  /-- No option or value is expected here. -/
  | unknownArgument
  /-- An option is given twice. -/
  | repeated
  /-- An option without a value is given one. -/
  | unexpectedValue
  | help
  | version
  deriving DecidableEq, Repr, Inhabited

/-- What the command line asks for. -/
structure Arguments where
  apk : Option Path := none
  app : Option Bool := none
  print : Option Bool := none
  out : Option Path := none
  idStrategy : Option IdStrategy := none
  locationFormat : Option LocationFormat := none
  config : Option Path := none
  contentDir : Option Path := none
  forceExtract : Bool := false
  debug : Bool := false
  deriving DecidableEq, Repr, Inhabited

namespace Arguments

/-- What is shown for the version. -/
def versionText : String := "covprobe 0.3.0\n"

/-- A truth value, in any case of ASCII letters. -/
def flag? (s : String) : Option Bool :=
  let name := String.ofList (s.toList.map Char.toLower)
  if name = "true" ∨ name = "1" ∨ name = "yes" then some true
  else if name = "false" ∨ name = "0" ∨ name = "no" then some false
  else none

/-- Fills a slot that must be empty with a value that must be there. -/
def fill {α : Type} (slot : Option α) (value : Option α) (fault : UsageFault) :
    Except UsageFault (Option α) :=
  if slot.isSome then .error .repeated
  else match value with
    | some a => .ok (some a)
    | none => .error fault

/-- The path that a value names. -/
def path? (s : String) : Option Path :=
  if s.isEmpty then none else some s

/-- Takes an option with its value. -/
def store (a : Arguments) (o : CommandOption) (v : String) : Except UsageFault Arguments :=
  match o with
  | .apk => return { a with apk := ← fill a.apk (path? v) .invalidValue }
  | .app => return { a with app := ← fill a.app (flag? v) .invalidFlag }
  | .print => return { a with print := ← fill a.print (flag? v) .invalidFlag }
  | .out => return { a with out := ← fill a.out (path? v) .invalidValue }
  | .idStrategy =>
    return { a with idStrategy := ← fill a.idStrategy (IdStrategy.ofName? v) .invalidValue }
  | .locationFormat =>
    return { a with
      locationFormat := ← fill a.locationFormat (LocationFormat.ofName? v) .invalidValue }
  | .config => return { a with config := ← fill a.config (path? v) .invalidValue }
  | .contentDir => return { a with contentDir := ← fill a.contentDir (path? v) .invalidValue }
  | .forceExtract | .debug | .help | .version => .error .unexpectedValue

/-- Takes an option that has no value. -/
def raise (a : Arguments) (o : CommandOption) : Except UsageFault Arguments :=
  match o with
  | .forceExtract =>
    if a.forceExtract then .error .repeated else .ok { a with forceExtract := true }
  | .debug => if a.debug then .error .repeated else .ok { a with debug := true }
  | .help => .error .help
  | .version => .error .version
  | _ => .error .invalidValue

/-- How far the reading has come. The option that was met last may wait for its value, or
with its value to be judged. -/
structure State where
  taken : Arguments := {}
  waiting : Option (CommandOption × Option String) := none
  /-- Whether options have ended. -/
  ended : Bool := false

namespace State

/-- Judges what waits. -/
def settle (s : State) : Except UsageFault State :=
  match s.waiting with
  | none => .ok s
  | some (_, none) => .error .invalidValue
  | some (o, some v) => do return { s with taken := ← s.taken.store o v, waiting := none }

/-- Meets an option, with the value that is attached to it. -/
def meet (s : State) (o : CommandOption) (attached : Option String) : Except UsageFault State :=
  match o.takesValue, attached with
  | true, some v => do
    let s ← s.settle
    return { s with taken := ← s.taken.store o v }
  | true, none => do
    let s ← s.settle
    return { s with waiting := some (o, none) }
  | false, some _ => .error .unexpectedValue
  | false, none => do
    let s ← s.settle
    return { s with taken := ← s.taken.raise o }

/-- Meets the letters after a single dash. An option with a value takes all that follows. -/
def meetLetters (s : State) : List Char → Except UsageFault State
  | [] => .ok s
  | c :: rest =>
    match CommandOption.ofShort? c with
    | none => .error .unknownArgument
    | some o =>
      if o.takesValue then
        match rest with
        | [] => s.meet o none
        | '=' :: value => s.meet o (some (String.ofList value))
        | value => s.meet o (some (String.ofList value))
      else do meetLetters (← s.meet o none) rest

/-- Meets one argument. -/
def step (s : State) (arg : String) : Except UsageFault State :=
  if s.ended then .error .unknownArgument
  else match arg.toList with
    | ['-', '-'] => .ok { s with ended := true }
    | '-' :: '-' :: long =>
      match CommandOption.ofLong? (String.ofList (long.takeWhile (· ≠ '='))) with
      | none => .error .unknownArgument
      | some o =>
        s.meet o <| match long.dropWhile (· ≠ '=') with
          | [] => none
          | _ :: value => some (String.ofList value)
    | '-' :: c :: letters => s.meetLetters (c :: letters)
    | _ =>
      match s.waiting with
      | some (o, none) => .ok { s with waiting := some (o, some arg) }
      | _ => .error .unknownArgument

end State

/-- Reads the arguments of the command line, without the name of the program. -/
def parse (args : List String) : Except UsageFault Arguments := do
  let s ← (← args.foldlM State.step {}).settle
  if s.taken.apk.isNone then .error .missingRequired else .ok s.taken

/-- The package to be instrumented, or the directory that holds it. What `parse` gives has
one. -/
def package (a : Arguments) : Path :=
  a.apk.getD ""

/-- The settings with what the command line says put over them. -/
def override (a : Arguments) (s : Settings) : Settings :=
  let i := s.instrumentation
  { s with
    instrumentation := { i with
      scopedToApp := a.app.getD i.scopedToApp
      copiesToLog := a.print.getD i.copiesToLog
      idStrategy := a.idStrategy.getD i.idStrategy
      locationFormat := a.locationFormat.getD i.locationFormat } }

end Arguments

end Tracepoint
