import PocketShell.Text.Digit
import PocketShell.Text.Literal

/-!
# Command-line arguments

Every argument is classified before any is acted on. After `--` all arguments are plain. An
argument that begins with a hyphen is an option by its exact spelling, with a value behind an
equals sign, by the beginning of one long spelling, or as a short option with its value
attached. A number and a text with a space are plain all the same. What is neither an option
nor the value of one is reported, in order, once everything else was accepted.
-/

namespace PocketShell

/-- The options of the shell. -/
inductive Flag where
  | help
  | command
  | debug
  | noCompletion
  deriving DecidableEq

namespace Flag

def spellings : List (Text × Flag) :=
  [("-h".toList, .help), ("--help".toList, .help), ("-c".toList, .command),
   ("--debug".toList, .debug), ("--no-completion".toList, .noCompletion)]

def ofSpelling? (t : Text) : Option Flag :=
  spellings.lookup t

/-- How messages refer to an option. -/
def title : Flag → Text
  | .help => "-h/--help".toList
  | .command => "-c".toList
  | .debug => "--debug".toList
  | .noCompletion => "--no-completion".toList

end Flag

/-- What the arguments ask for. -/
structure Options where
  command : Option Text
  debug : Bool
  noCompletion : Bool
  deriving DecidableEq

namespace Arguments

/-- What is wrong with the arguments. -/
inductive UsageError where
  | ambiguous (arg : Text) (matching : List Text)
  | noValue (flag : Flag)
  | ignoredValue (flag : Flag) (value : Text)
  | unrecognized (args : List Text)
  deriving DecidableEq

namespace UsageError

def message : UsageError → Text
  | .ambiguous arg matching =>
    "ambiguous option: ".toList ++ arg ++ " could match ".toList
      ++ Text.joined [',', ' '] matching
  | .noValue flag => "argument ".toList ++ flag.title ++ ": expected one argument".toList
  | .ignoredValue flag value =>
    "argument ".toList ++ flag.title ++ ": ignored explicit argument ".toList
      ++ Text.displayed value
  | .unrecognized args => "unrecognized arguments: ".toList ++ Text.joined [' '] args

end UsageError

/-- What an argument is. A short option may have others attached to it. -/
inductive Class where
  | plain
  | separator
  | unknown
  | option (flag : Flag) (short : Bool) (value : Option Text)
  deriving DecidableEq

/-- The text before the first equals sign and the text behind it. -/
def splitValue? (t : Text) : Option (Text × Text) :=
  match t.dropWhile (· ≠ '=') with
  | [] => none
  | _ :: value => some (t.takeWhile (· ≠ '='), value)

/-- The long spellings that begin with a text. -/
def matching (t : Text) : List (Text × Flag) :=
  Flag.spellings.filter fun s => "--".toList.isPrefixOf s.1 && t.isPrefixOf s.1

/-- A number: a hyphen and digits, with at most one point before the last of them. A line end
may follow. -/
def isNegativeNumber (t : Text) : Bool :=
  let body := if t.getLast? = some '\n' then t.dropLast else t
  match body with
  | '-' :: rest =>
    match rest.dropWhile Text.isDecimal with
    | [] => rest ≠ []
    | '.' :: decimals => decimals ≠ [] && decimals.all Text.isDecimal
    | _ => false
  | _ => false

/-- An argument that begins with a hyphen and is no option. -/
def otherwise (t : Text) : Class :=
  if isNegativeNumber t || ' ' ∈ t then .plain else .unknown

/-- Classifies an argument that begins with two hyphens and is no exact spelling. -/
def classifyLong (t : Text) : Except UsageError Class :=
  let (spelling, value) :=
    match splitValue? t with
    | some (before, value) => (before, some value)
    | none => (t, none)
  match Flag.ofSpelling? spelling with
  | some flag => .ok (.option flag false value)
  | none =>
    match matching spelling with
    | [] => .ok (otherwise t)
    | [(_, flag)] => .ok (.option flag false value)
    | several => .error (.ambiguous t (several.map Prod.fst))

/-- Classifies an argument that begins with one hyphen and is no exact spelling: a short
option, and what is attached to it. An equals sign before the value is left out. -/
def classifyShort (t : Text) (letter : Char) (attached : Text) : Class :=
  match Flag.ofSpelling? ['-', letter] with
  | none => otherwise t
  | some flag =>
    match attached with
    | '=' :: value => .option flag true (some value)
    | _ => .option flag true (some attached)

/-- Classifies an argument that no separator stands before. -/
def classify (t : Text) : Except UsageError Class :=
  match t with
  | '-' :: next :: rest =>
    match Flag.ofSpelling? t with
    | some flag => .ok (.option flag (next ≠ '-') none)
    | none =>
      if next = '-' then
        if rest = [] then .ok .separator else classifyLong t
      else .ok (classifyShort t next rest)
  | _ => .ok .plain

/-- Classifies all arguments. Behind a separator they are plain. -/
def classifyAll : List Text → Except UsageError (List (Text × Class))
  | [] => .ok []
  | t :: rest =>
    match classify t with
    | .error e => .error e
    | .ok .separator => .ok ((t, .separator) :: rest.map (·, .plain))
    | .ok c => (classifyAll rest).map ((t, c) :: ·)

/-- What the arguments come to. -/
inductive Outcome where
  | help
  | options (o : Options)
  | invalid (e : UsageError)
  deriving DecidableEq

/-- What is attached to a request for help: more requests for help, or the command option
with its value. The answer says whether that value is still to come. -/
def attachedToHelp : Text → Except UsageError Bool
  | [] => .ok false
  | letter :: rest =>
    match Flag.ofSpelling? ['-', letter] with
    | some .help => attachedToHelp rest
    | some .command => .ok (rest = [])
    | _ => .error (.ignoredValue .help (letter :: rest))

/-- The command that a value gives: the separator given as a value gives none. -/
def commandOf (value : Text) : Text :=
  if value = ['-', '-'] then [] else value

/-- The first of the remaining arguments is plain, and so can be a value. -/
def plainFollows : List (Text × Class) → Bool
  | (_, .plain) :: _ => true
  | _ => false

/-- The outcome of a request for help with something attached to it. -/
def helpOutcome (attached : Text) (rest : List (Text × Class)) : Outcome :=
  match attachedToHelp attached with
  | .error e => .invalid e
  | .ok true => if plainFollows rest then .help else .invalid (.noValue .command)
  | .ok false => .help

/-- Acts on the classified arguments, one after the other. -/
def consume (o : Options) (unused : List Text) : List (Text × Class) → Outcome
  | [] => if unused = [] then .options o else .invalid (.unrecognized unused)
  | (_, .option .help _ none) :: _ => .help
  | (_, .option .help short (some value)) :: rest =>
    if short && value ≠ [] then helpOutcome value rest
    else .invalid (.ignoredValue .help value)
  | (_, .option .command _ (some value)) :: rest =>
    consume { o with command := some (commandOf value) } unused rest
  | (_, .option .command _ none) :: (value, .plain) :: rest =>
    consume { o with command := some value } unused rest
  | (_, .option .command _ none) :: _ => .invalid (.noValue .command)
  | (_, .option flag _ (some value)) :: _ => .invalid (.ignoredValue flag value)
  | (_, .option .debug _ none) :: rest => consume { o with debug := true } unused rest
  | (_, .option .noCompletion _ none) :: rest =>
    consume { o with noCompletion := true } unused rest
  | (t, _) :: rest => consume o (unused ++ [t]) rest

def read (args : List Text) : Outcome :=
  match classifyAll args with
  | .error e => .invalid e
  | .ok classified => consume ⟨none, false, false⟩ [] classified

end Arguments

end PocketShell
