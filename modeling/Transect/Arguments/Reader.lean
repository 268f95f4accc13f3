import Transect.Arguments.Token

/-!
# Reading command lines

Words are read from left to right. A value that is a word of its own is looked at only when the
next flag is reached, or the end, so an unknown argument right after it is reported first. The
flags of the program itself are looked at again when the command has been read.
-/

namespace Transect

/-! ## Values -/

/-- What the flags of a scope have given so far. -/
structure Given where
  config : Option String
  line : Option (List Point)
  count : Option Nat
  layers : Option (List String)
  parallel : Bool
  location : Option Point

namespace Given

def nothing : Given := ⟨none, none, none, none, false, none⟩

/-- Whether a flag has been given that can be given once only. -/
def has (g : Given) : Flag → Bool
  | .config => g.config.isSome
  | .line => g.line.isSome
  | .count => g.count.isSome
  | .location => g.location.isSome
  | .parallel => g.parallel
  | .layers | .help | .version => false

def readPoints (value : String) : Except ValueError Nat := do
  let n ← (readCount value.toList).mapError .count
  if n ≤ maxPoints then return n else throw .tooManyPoints

def readNames (value : String) : List String := (splitAt ',' value.toList).map .ofList

def read (g : Given) (flag : Flag) (value : String) : Except ValueError Given :=
  match flag with
  | .config => .ok { g with config := some value }
  | .line => ((GeoJson.readLine value).mapError .line).map fun line => { g with line := some line }
  | .count => (readPoints value).map fun n => { g with count := some n }
  | .layers => .ok { g with layers := some (g.layers.getD [] ++ readNames value) }
  | .location =>
    ((Point.read value).mapError .location).map fun p => { g with location := some p }
  | .parallel | .help | .version => .ok g

def accept (g : Given) (flag : Flag) : Option String → Except ArgumentError Given
  | none => .error (.noValue flag)
  | some value =>
    if g.has flag then .error (.repeated flag)
    else if flag = .config ∧ value = "" then .error (.noValue flag)
    else (g.read flag value).mapError (.badValue flag)

def turnOn (g : Given) : Flag → Except ArgumentError Given
  | .help => .error .helpWanted
  | .version => .error .versionWanted
  | .parallel =>
    if g.parallel then .error (.repeated .parallel) else .ok { g with parallel := true }
  | flag => .error (.noValue flag)

end Given

/-! ## Words -/

/-- The state of reading a scope: what is given, and the last flag if its value is yet to be looked
at, or to come. -/
structure Scan where
  given : Given
  pending : Option (Flag × Option String)

namespace Scan

def start : Scan := ⟨.nothing, none⟩

/-- The flag whose value is to come. -/
def waiting? (s : Scan) : Option Flag :=
  match s.pending with
  | some (flag, none) => some flag
  | _ => none

/-- Looks at the value of the last flag. -/
def settle (s : Scan) : Except ArgumentError Given :=
  match s.pending with
  | some (flag, value) => s.given.accept flag value
  | none => .ok s.given

def takeFlag (s : Scan) (flag : Flag) (attached : Option String) : Except ArgumentError Scan := do
  let given ← s.settle
  if flag.takesValue then
    match attached with
    | some value => return ⟨← given.accept flag value, none⟩
    | none => return ⟨given, some (flag, none)⟩
  else return ⟨← given.turnOn flag, none⟩

def takeLong (scope : Scope) (s : Scan) (name : String) (attached : Option String) :
    Except ArgumentError Scan :=
  match scope.long? name with
  | none => .error .unknownArgument
  | some flag =>
    if attached.isSome ∧ ¬flag.takesValue then .error (.unwantedValue flag)
    else s.takeFlag flag attached

def takeLetters (scope : Scope) (s : Scan) : List Char → Except ArgumentError Scan
  | [] => .ok s
  | c :: cs =>
    match scope.short? c with
    | none => .error .unknownArgument
    | some flag =>
      if flag.takesValue then s.takeFlag flag (attachedValue cs)
      else do takeLetters scope (← s.takeFlag flag none) cs

end Scan

namespace Scope

/-- The error for a word that is neither a value nor a command. -/
def stray : Scope → ArgumentError
  | .program => .unknownCommand
  | _ => .unknownArgument

/-- The error for a word after two dashes. -/
def strayAfterTerminator (scope : Scope) (word : String) : ArgumentError :=
  if (scope.command? word).isSome then .unknownArgument else scope.stray

/-- Reads a scope up to its end, or to a command with the words after it. -/
def scan (scope : Scope) (s : Scan) :
    List String → Except ArgumentError (Scan × Option (CommandName × List String))
  | [] => .ok (s, none)
  | word :: rest =>
    match Token.ofChars word.toList with
    | .terminator =>
      match rest with
      | [] => .ok (s, none)
      | stray :: _ => .error (scope.strayAfterTerminator stray)
    | .long name attached => do scope.scan (← s.takeLong scope name attached) rest
    | .letters cs => do scope.scan (← s.takeLetters scope cs) rest
    | .plain =>
      match s.waiting? with
      | some flag => scope.scan { s with pending := some (flag, some word) } rest
      | none =>
        match scope.command? word with
        | some name => .ok (s, some (name, rest))
        | none => .error scope.stray

def readFlags (scope : Scope) (words : List String) : Except ArgumentError Given := do
  let (s, _) ← scope.scan .start words
  s.settle

end Scope

/-! ## Commands -/

/-- How many points a profile has if nothing is said. -/
def defaultCount : Nat := 100

/-- What comes of asking for help on a command. -/
def helpOn : List String → ArgumentError
  | [] => .helpWanted
  | [word] => if (CommandName.ofString? word).isSome then .helpWanted else .unknownCommand
  | _ => .unknownCommand

def Command.read (words : List String) : CommandName → Except ArgumentError Command
  | .help => .error (helpOn words)
  | .profile format => do
    let given ← Scope.profile.readFlags words
    let some line := given.line | throw (.missing .line)
    return .profile format ⟨line, given.count.getD defaultCount, given.layers, given.parallel⟩
  | .raster => do
    let given ← Scope.raster.readFlags words
    let some location := given.location | throw (.missing .location)
    return .raster location given.layers

def Arguments.read (words : List String) : Except ArgumentError Arguments := do
  let (s, found) ← Scope.program.scan .start words
  match found with
  | some (name, rest) =>
    let command ← Command.read rest name
    let given ← s.settle
    let some config := given.config | throw (.missing .config)
    return ⟨config, command⟩
  | none =>
    let given ← s.settle
    throw (if given.config.isSome then .noCommand else .nothingGiven)

end Transect
