import CaseIntake.Spec

/-!
# Command lines

There are two commands. `validate` takes an input, and `convert` an input and the name of a
function; each has options of its own. The value of an option follows it as the next word or after
an equals sign, and right after the letter of a short option. A word that begins with a hyphen is
no value. No option is given twice.
-/

namespace CaseIntake

/-- How JSON is laid out. -/
inductive Layout where
  | pretty
  | compact
deriving DecidableEq

structure ValidateCommand where
  input : String
  options : Option String
  layout : Layout
deriving DecidableEq

structure ConvertCommand where
  input : String
  function : String
  file : Option String
  level : Level
  output : Option String
  options : Option String
  layout : Layout
deriving DecidableEq

inductive Command where
  | validate (command : ValidateCommand)
  | convert (command : ConvertCommand)
deriving DecidableEq

namespace Command

/-- The files that a command reads. -/
def sources : Command → List String
  | .validate c => c.input :: c.options.toList
  | .convert c => c.input :: c.options.toList

/-- The file that a command writes, if it does. -/
def destination? : Command → Option String
  | .validate _ => none
  | .convert c => c.output

end Command

namespace CommandLine

/-- The options that a command knows. -/
structure Known where
  /-- The long options with a value. -/
  valued : List String
  /-- The short options with a value, and their long names. -/
  short : List (Char × String)

/-- What a command line holds, option by option. -/
structure Words where
  verbose : Bool
  values : List (String × String)
  inputs : List String

namespace Words

def empty : Words :=
  ⟨false, [], []⟩

def addVerbose (w : Words) : Option Words :=
  if w.verbose then none else some { w with verbose := true }

def addValue (w : Words) (name value : String) : Option Words :=
  if (w.values.lookup name).isSome then none
  else some { w with values := (name, value) :: w.values }

def addInput (w : Words) (input : String) : Words :=
  { w with inputs := w.inputs ++ [input] }

def value? (w : Words) (name : String) : Option String :=
  w.values.lookup name

end Words

/-- Whether a word can be the value of the option before it. -/
def isValue (word : String) : Bool :=
  match word.toList with
  | '-' :: _ :: _ => false
  | _ => true

/-- What the letters of a word of short options say. -/
inductive ShortReading where
  | done (w : Words)
  /-- The last letter is an option whose value is the next word. -/
  | open (name : String) (w : Words)
  | refused

/-- Reads the letters after a single hyphen. -/
def readShort (k : Known) : List Char → Words → ShortReading
  | [], w => .done w
  | c :: cs, w =>
    if c = 'v' then
      match w.addVerbose with
      | some w => readShort k cs w
      | none => .refused
    else
      match k.short.lookup c with
      | none => .refused
      | some name =>
        match cs with
        | [] => .open name w
        | _ =>
          let value := if cs.head? = some '=' then cs.drop 1 else cs
          match w.addValue name (String.ofList value) with
          | some w => .done w
          | none => .refused

/-- The name and the value of a long option; the value is there after an equals sign. -/
def splitLong (cs : List Char) : String × Option String :=
  let name := cs.takeWhile (· ≠ '=')
  match cs.dropWhile (· ≠ '=') with
  | [] => (String.ofList name, none)
  | _ :: value => (String.ofList name, some (String.ofList value))

/-- Reads the words of a command. -/
def readWords (k : Known) : List String → Words → Option Words
  | [], w => some w
  | word :: rest, w =>
    match word.toList with
    | ['-', '-'] => some (rest.foldl Words.addInput w)
    | '-' :: '-' :: body =>
      match splitLong body with
      | ("verbose", none) => w.addVerbose.bind (readWords k rest)
      | (name, some value) =>
        if k.valued.contains name then (w.addValue name value).bind (readWords k rest) else none
      | (name, none) =>
        match rest with
        | value :: rest =>
          if k.valued.contains name && isValue value then
            (w.addValue name value).bind (readWords k rest)
          else none
        | [] => none
    | '-' :: c :: letters =>
      match readShort k (c :: letters) w with
      | .refused => none
      | .done w => readWords k rest w
      | .open name w =>
        match rest with
        | value :: rest =>
          if isValue value then (w.addValue name value).bind (readWords k rest) else none
        | [] => none
    | _ => readWords k rest (w.addInput word)

/-- A path, which has at least one character. -/
def path? (s : String) : Option String :=
  if s = "" then none else some s

/-- The value of an option that may be absent but has to be well formed. -/
def optional {α : Type} (read : String → Option α) : Option String → Option (Option α)
  | none => some none
  | some s => (read s).map some

def layout? (s : String) : Option Layout :=
  if s = "pretty" then some .pretty else if s = "compact" then some .compact else none

def level? (s : String) : Option Level :=
  Level.words.lookup s

def validateOptions : Known :=
  ⟨["options", "format"], []⟩

def convertOptions : Known :=
  ⟨["function", "file", "level", "output", "options", "format"], [('o', "output")]⟩

def readValidate (w : Words) : Option Command :=
  match w.inputs with
  | [input] => do
    let input ← path? input
    let options ← optional path? (w.value? "options")
    let layout ← optional layout? (w.value? "format")
    some (.validate ⟨input, options, layout.getD .pretty⟩)
  | _ => none

def readConvert (w : Words) : Option Command :=
  match w.inputs with
  | [input] => do
    let input ← path? input
    let function ← w.value? "function"
    let file ← optional path? (w.value? "file")
    let level ← optional level? (w.value? "level")
    let output ← optional path? (w.value? "output")
    let options ← optional path? (w.value? "options")
    let layout ← optional layout? (w.value? "format")
    some (.convert
      ⟨input, function, file, level.getD .unit, output, options, layout.getD .pretty⟩)
  | _ => none

/-- The words before the command, of which only the wish for more messages is known. -/
def dropVerbose : List String → Option (List String)
  | "-v" :: rest | "--verbose" :: rest =>
    if rest.head? = some "-v" || rest.head? = some "--verbose" then none else some rest
  | args => some args

/-- The command of a command line; `none` if it is misused. -/
def read? (args : List String) : Option Command :=
  match dropVerbose args with
  | some ("validate" :: rest) => (readWords validateOptions rest .empty).bind readValidate
  | some ("convert" :: rest) => (readWords convertOptions rest .empty).bind readConvert
  | _ => none

end CommandLine
end CaseIntake
