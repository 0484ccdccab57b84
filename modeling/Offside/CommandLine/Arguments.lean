import Offside.Text.DecimalDigit
import Offside.Text.Quoted

/-!
# Arguments

The arguments of the command are flags and at most one input, in any order. Each argument is
classified on its own first; then the items are taken from left to right.
-/

namespace Offside.CommandLine

inductive Flag where
  | help
  | strict
  | json
  | verbose
  deriving DecidableEq, Repr

namespace Flag

def all : List Flag :=
  [help, strict, json, verbose]

def long : Flag → String
  | help => "--help"
  | strict => "--strict"
  | json => "--json"
  | verbose => "--verbose"

def short? : Flag → Option Char
  | help => some 'h'
  | verbose => some 'v'
  | _ => none

/-- All spellings of a flag, as messages show them. -/
def spellings (flag : Flag) : String :=
  match flag.short? with
  | some c => String.ofList ['-', c] ++ "/" ++ flag.long
  | none => flag.long

def ofShort? (c : Char) : Option Flag :=
  all.find? fun flag => flag.short? == some c

def ofLong? (name : String) : Option Flag :=
  all.find? fun flag => flag.long == name

end Flag

/-- Why arguments are refused. -/
inductive UsageError where
  | ambiguous (argument : String) (flags : List Flag)
  | ignoredValue (flag : Flag) (value : String)
  | unrecognized (arguments : List String)
  deriving DecidableEq, Repr

def UsageError.message : UsageError → String
  | ambiguous argument flags =>
    "ambiguous option: " ++ argument ++ " could match " ++
      ", ".intercalate (flags.map Flag.long)
  | ignoredValue flag value =>
    "argument " ++ flag.spellings ++ ": ignored explicit argument " ++ Text.quoted value
  | unrecognized arguments =>
    "unrecognized arguments: " ++ " ".intercalate arguments

/-! ### Items -/

/-- A classified argument: a word, the mark behind which all arguments are words, a flag by its long
name, a flag by its letter with all that is attached to it, or what only looks like a flag. A flag
takes no value, but one may be given. -/
inductive Item where
  | word (text : String)
  | separator
  | long (flag : Flag) (value : Option String)
  | short (flag : Flag) (attached : String)
  | unknown (text : String)
  deriving DecidableEq, Repr

def splitValue (argument : List Char) : List Char × Option String :=
  match argument.dropWhile (· != '=') with
  | [] => (argument, none)
  | _ :: value => (argument.takeWhile (· != '='), some (String.ofList value))

/-- A decimal number with a minus sign, perhaps with a line break behind it. -/
def isNegativeNumber (argument : List Char) : Bool :=
  match argument with
  | '-' :: number =>
    let number := if number.getLast? = some '\n' then number.dropLast else number
    let whole := number.takeWhile Text.isDecimalDigit
    match number.dropWhile Text.isDecimalDigit with
    | [] => !whole.isEmpty
    | '.' :: part => !part.isEmpty && part.all Text.isDecimalDigit
    | _ => false
  | _ => false

/-- The reading of an argument that is no flag and no abbreviation of one. -/
def plainItem (argument : List Char) : Item :=
  if isNegativeNumber argument || argument.contains ' ' then .word (String.ofList argument)
  else .unknown (String.ofList argument)

/-- A long name may be cut short as long as only one flag is left that begins with it. -/
def longItem (argument : List Char) : Except UsageError Item :=
  let (name, value) := splitValue argument
  match Flag.ofLong? (String.ofList name) with
  | some flag => .ok (.long flag value)
  | none =>
    match Flag.all.filter fun flag => name.isPrefixOf flag.long.toList with
    | [] => .ok (plainItem argument)
    | [flag] => .ok (.long flag value)
    | flags => .error (.ambiguous (String.ofList argument) flags)

def shortItem (letter : Char) (rest argument : List Char) : Item :=
  match Flag.ofShort? letter with
  | none => plainItem argument
  | some flag => .short flag (String.ofList rest)

def Item.ofArgument (argument : String) : Except UsageError Item :=
  match argument.toList with
  | '-' :: '-' :: name => longItem ('-' :: '-' :: name)
  | '-' :: letter :: rest => .ok (shortItem letter rest ('-' :: letter :: rest))
  | _ => .ok (.word argument)

def items : List String → Except UsageError (List Item)
  | [] => .ok []
  | argument :: arguments =>
    if argument = "--" then .ok (.separator :: arguments.map .word)
    else do
      let item ← Item.ofArgument argument
      let items ← items arguments
      return item :: items

/-! ### Options -/

structure Options where
  strict : Bool := false
  json : Bool := false
  verbose : Bool := false
  input : Option String := none
  deriving DecidableEq, Repr

/-- Why there are no options: help was asked for, or the arguments are refused. -/
inductive Refusal where
  | help
  | usage (error : UsageError)
  deriving DecidableEq, Repr

def Options.set (options : Options) : Flag → Except Refusal Options
  | .help => .error .help
  | .strict => .ok { options with strict := true }
  | .json => .ok { options with json := true }
  | .verbose => .ok { options with verbose := true }

/-! ### Clusters -/

/-- The rule for what is attached to the letter of a flag has two editions. In both it should be
more letters of flags. In the early one an equals sign in front of them is skipped, and what is none
of them is refused. In the late one what is none of them has no use, but is refused if it begins
with an equals sign or with a dash. -/
inductive Edition where
  | early
  | late
  deriving DecidableEq, Repr

/-- What an item comes to: its flags, and the arguments in it that have no use. -/
structure Uses where
  flags : List Flag := []
  extras : List String := []
  deriving DecidableEq, Repr

def Uses.after (flag : Flag) (uses : Uses) : Uses :=
  { uses with flags := flag :: uses.flags }

/-- What begins with a letter that is no flag, behind the letter of one. -/
def stray (edition : Edition) (flag : Flag) (letter : Char) (rest : List Char) :
    Except UsageError Uses :=
  match edition, letter with
  | .late, '=' => .error (.ignoredValue flag (String.ofList rest))
  | .early, _ | .late, '-' => .error (.ignoredValue flag (String.ofList (letter :: rest)))
  | .late, _ => .ok { flags := [flag], extras := [String.ofList ('-' :: letter :: rest)] }

def cluster (edition : Edition) (flag : Flag) : List Char → Except UsageError Uses
  | [] => .ok { flags := [flag] }
  | letter :: rest =>
    match Flag.ofShort? letter with
    | some next => (cluster edition next rest).map (Uses.after flag)
    | none => stray edition flag letter rest

def Item.uses (edition : Edition) : Item → Except UsageError Uses
  | .long flag none => .ok { flags := [flag] }
  | .long flag (some value) => .error (.ignoredValue flag value)
  | .short flag attached =>
    match edition, attached.toList with
    | .early, ['='] => .error (.ignoredValue flag "")
    | .early, '=' :: letters => cluster .early flag letters
    | edition, letters => cluster edition flag letters
  | _ => .ok {}

/-! ### Progress -/

/-- What is known behind some items: the options, whether the input was looked for, and the
arguments that have no use. -/
structure Progress where
  options : Options := {}
  complete : Bool := false
  extras : List String := []
  deriving DecidableEq, Repr

def Progress.addExtra (progress : Progress) (argument : String) : Progress :=
  { progress with extras := progress.extras ++ [argument] }

/-- The input is the first word. The separator may stand on either side of it. -/
def Progress.take (edition : Edition) (progress : Progress) :
    List Item → Except Refusal Progress
  | [] => .ok progress
  | .unknown text :: items => (progress.addExtra text).take edition items
  | .word text :: .separator :: items =>
    if progress.complete then ((progress.addExtra text).addExtra "--").take edition items
    else
      { progress with
        options := { progress.options with input := some text }
        complete := true }.take edition items
  | .word text :: items =>
    if progress.complete then (progress.addExtra text).take edition items
    else
      { progress with
        options := { progress.options with input := some text }
        complete := true }.take edition items
  | .separator :: .word text :: items =>
    if progress.complete then ((progress.addExtra "--").addExtra text).take edition items
    else
      { progress with
        options := { progress.options with input := some text }
        complete := true }.take edition items
  | .separator :: items =>
    if progress.complete then (progress.addExtra "--").take edition items
    else { progress with complete := true }.take edition items
  | item :: items => do
    let uses ← (item.uses edition).mapError .usage
    let options ← uses.flags.foldlM Options.set progress.options
    { progress with options := options, extras := progress.extras ++ uses.extras }.take edition
      items

def Options.ofArguments (edition : Edition) (arguments : List String) :
    Except Refusal Options := do
  let items ← (items arguments).mapError .usage
  let progress ← Progress.take edition {} items
  if progress.extras.isEmpty then return progress.options
  else throw (.usage (.unrecognized progress.extras))

end Offside.CommandLine
