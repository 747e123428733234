import CycleSchedule.Scheduler.Choice
import CycleSchedule.Text.Numeral

/-! The command line: options in long and short form, and what they ask for. -/

namespace CycleSchedule.Command

/-- The forms in which a schedule is printed. -/
inductive Format where
  | text
  | yaml
deriving DecidableEq, Repr

namespace Format

/-- The name of a format. -/
def name : Format → String
  | text => "text"
  | yaml => "yaml"

/-- The format of a name. -/
def ofName? (name : String) : Option Format := [text, yaml].find? (·.name = name)

end Format

/-- How a schedule is asked for; what is not given is left to the file. -/
structure ScheduleOptions where
  algorithm : Option Algorithm
  variant : Option Variant
  last : Option String
  format : Format
  output : Option String
deriving DecidableEq, Repr

/-- What is asked for. -/
inductive Task where
  | schedule (options : ScheduleOptions)
  | validate (variant : Option Variant)
  | bound
deriving DecidableEq, Repr

/-- A task for a file, and how much is told on the way. -/
structure Request where
  verbosity : Int
  file : String
  task : Task
deriving DecidableEq, Repr

/-- An option that takes a value, by its names: a long one, and a single letter where there is one.
-/
structure OptionName where
  long : String
  letter : Option Char
deriving DecidableEq, Repr

/-- The values given for options, by long name, the latest first, and the other arguments. -/
structure Arguments where
  values : List (String × String)
  rest : List String
deriving DecidableEq, Repr

/-- The latest value of an option. -/
def Arguments.value? (arguments : Arguments) (long : String) : Option String :=
  -- The values of later arguments stand in front, so the first one found is the latest.
  arguments.values.lookup long

/-- Whether an argument is an option: a hyphen with something behind it. -/
def isOption (argument : String) : Bool :=
  -- A hyphen alone is an argument.
  argument.toList.head? = some '-' && 1 < argument.length

/-- The name and the value that an equals sign separates. -/
def splitValue (argument : String) : String × Option String :=
  let cs := argument.toList
  match cs.dropWhile (· ≠ '=') with
  | [] => (argument, none)
  -- Only the first equals sign separates; all others belong to the value.
  | _ :: value => (String.ofList (cs.takeWhile (· ≠ '=')), some (String.ofList value))

/-- What an argument says about options: a name, and its value if that is part of the argument. -/
def option? (known : List OptionName) (argument : String) : Option (String × Option String) :=
  let (name, value) := splitValue argument
  -- A long name is taken whole, a letter may have its value right behind it.
  if (known.map (·.long)).contains name then some (name, value)
  else match argument.toList with
    | '-' :: letter :: rest =>
      (known.find? (·.letter = some letter)).map fun option =>
        (option.long, if rest.isEmpty then none else some (String.ofList rest))
    | _ => none

/-- The options and the rest of arguments. Two hyphens end the options; where options do not mix
with other arguments, the first of those ends them as well. -/
def split? (known : List OptionName) (mixed : Bool) : List String → Option Arguments
  | [] => some ⟨[], []⟩
  | argument :: rest =>
    -- After two dashes everything is an argument.
    if argument = "--" then some ⟨[], rest⟩
    else if isOption argument then
      match option? known argument, rest with
      | none, _ => none
      | some (name, some value), rest => (split? known mixed rest).map fun arguments =>
        { arguments with values := arguments.values ++ [(name, value)] }
      -- An option that wants a value cannot come last.
      | some _, [] => none
      | some (name, none), value :: rest => (split? known mixed rest).map fun arguments =>
        { arguments with values := arguments.values ++ [(name, value)] }
    else if mixed then (split? known mixed rest).map fun arguments =>
      { arguments with rest := argument :: arguments.rest }
    -- Where options may not be mixed with arguments the first argument ends them.
    else some ⟨[], argument :: rest⟩

/-- The option for how much is told. -/
def verboseOption : OptionName := ⟨"--verbose", some 'v'⟩

/-- The option for the algorithm. -/
def algorithmOption : OptionName := ⟨"--algorithm", some 'a'⟩

/-- The option for the variant. -/
def variantOption : OptionName := ⟨"--variant", none⟩

/-- The option for the last operation. -/
def lastOption : OptionName := ⟨"--last-op", some 'l'⟩

/-- The option for the format. -/
def formatOption : OptionName := ⟨"--format", some 'f'⟩

/-- The option for the file to write. -/
def outputOption : OptionName := ⟨"--output", some 'o'⟩

/-- The greatest verbosity that can be asked for. -/
def verbosityLimit : Int := 3

/-- The value of an option, if the option is given and its value can be read. -/
def read? {α : Type} (arguments : Arguments) (option : OptionName) (read : String → Option α) :
    Option (Option α) :=
  -- An option that is not given is read as absent, one that cannot be read spoils the command.
  match arguments.value? option.long with
  | none => some none
  | some value => (read value).map some

/-- The verbosity that a text spells. -/
def verbosity? (s : String) : Option Int :=
  match Text.readNumeral s with
  -- Verbosities outside the scale are refused on the command line, not cut to its ends.
  | .ok n => if 0 ≤ n && n ≤ verbosityLimit then some n else none
  | .error _ => none

/-- The only argument besides the options, which is the file. -/
def file? (arguments : Arguments) : Option String :=
  match arguments.rest with
  -- No file and more than one file are refused alike.
  | [file] => some file
  | _ => none

/-- The file and the options for a schedule. -/
def scheduleTask? (rest : List String) : Option (String × Task) := do
  -- All options are read, and one bad value spoils the command.
  let known := [algorithmOption, variantOption, lastOption, formatOption, outputOption]
  let arguments ← split? known true rest
  let file ← file? arguments
  let algorithm ← read? arguments algorithmOption Algorithm.ofName?
  let variant ← read? arguments variantOption Variant.ofName?
  let last ← read? arguments lastOption some
  let format ← read? arguments formatOption Format.ofName?
  let output ← read? arguments outputOption some
  -- The text form is printed where no other is asked for.
  return (file, .schedule ⟨algorithm, variant, last, format.getD .text, output⟩)

/-- The file to validate, and the variant to validate it for. -/
def validateTask? (rest : List String) : Option (String × Task) := do
  let arguments ← split? [variantOption] true rest
  let file ← file? arguments
  let variant ← read? arguments variantOption Variant.ofName?
  return (file, .validate variant)

/-- The file to find the least interval for. -/
def boundTask? (rest : List String) : Option (String × Task) := do
  -- The bound knows no options at all.
  let arguments ← split? [] true rest
  let file ← file? arguments
  return (file, .bound)

/-- The request that arguments make, if they make one. -/
def request? (arguments : List String) : Option Request := do
  let outer ← split? [verboseOption] false arguments
  -- The verbosity stands before the command, and all else behind it.
  let verbosity ← read? outer verboseOption verbosity?
  let (file, task) ← match outer.rest with
    | "schedule" :: rest => scheduleTask? rest
    | "validate" :: rest => validateTask? rest
    | "bound" :: rest => boundTask? rest
    | _ => none
  return ⟨verbosity.getD 0, file, task⟩

end CycleSchedule.Command
