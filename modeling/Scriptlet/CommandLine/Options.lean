/-! Options of the command line. Each option and the file may be given once, in any order;
anything else is a mistake in usage. -/
namespace Scriptlet.CommandLine

/-- How a program tree is written. -/
inductive Format where
  | sexp
  | json
deriving DecidableEq, Repr

def Format.ofName? : String → Option Format
  | "sexp" => some .sexp
  | "json" => some .json
  | _ => none

/-- Options that stand by themselves. -/
inductive Switch where
  | tokens
  | dumpTokens
  | dumpProgram
deriving DecidableEq, Repr

def Switch.ofName? : String → Option Switch
  | "--tokens" => some .tokens
  | "-t" => some .tokens
  | "--dump-tokens" => some .dumpTokens
  | "--dump-ast" => some .dumpProgram
  | _ => none

/-- Options that have a value. -/
inductive Setting where
  | entry
  | format
deriving DecidableEq, Repr

def Setting.ofName? : String → Option Setting
  | "--entry" => some .entry
  | "--ast-format" => some .format
  | _ => none

structure Options where
  file : Option String
  entry : Option String
  format : Option Format
  switches : List Switch
deriving DecidableEq, Repr

namespace Options

/-- Nothing given yet. -/
def initial : Options := ⟨none, none, none, []⟩

/-- Name the file, which has to have a name. -/
def addFile (options : Options) (path : String) : Option Options :=
  if options.file.isSome ∨ path.isEmpty then none else some { options with file := some path }

def addSwitch (options : Options) (switch : Switch) : Option Options :=
  if options.switches.contains switch then none
  else some { options with switches := switch :: options.switches }

def addSetting (options : Options) (setting : Setting) (value : String) : Option Options :=
  match setting with
  | .entry => if options.entry.isSome then none else some { options with entry := some value }
  | .format =>
    if options.format.isSome then none
    else (Format.ofName? value).map fun format => { options with format := some format }

end Options

/-- A single dash is a value like any other. -/
def looksLikeOption (argument : String) : Bool :=
  argument.toList.head? == some '-' && argument != "-"

/-- The name of an option and the value behind an equals sign. -/
def splitOption (argument : String) : String × Option String :=
  let name := argument.toList.takeWhile (· ≠ '=')
  match argument.toList.drop name.length with
  | [] => (String.ofList name, none)
  | _ :: value => (String.ofList name, some (String.ofList value))

/-- Read the arguments from left to right. Behind two dashes there are only files. -/
def readOptions : List String → Options → Option Options
  | [], options => some options
  | argument :: rest, options =>
    if argument = "--" then rest.foldlM Options.addFile options
    else if looksLikeOption argument then
      let (name, attached) := splitOption argument
      match Switch.ofName? name, Setting.ofName? name, attached with
      | some switch, _, none => options.addSwitch switch >>= readOptions rest
      | none, some setting, some value => options.addSetting setting value >>= readOptions rest
      | none, some setting, none =>
        match rest with
        | [] => none
        | value :: after =>
          if looksLikeOption value then none
          else options.addSetting setting value >>= readOptions after
      | _, _, _ => none
    else options.addFile argument >>= readOptions rest

/-- What the program is asked to do. -/
inductive Task where
  | listInput
  | listTokens (path : String)
  | showProgram (path : String) (format : Format)
  | run (path entry : String)
deriving DecidableEq, Repr

/-- Without a file, or when asked to, tokens of the standard input are listed. -/
def Options.task (options : Options) : Task :=
  match options.file with
  | none => .listInput
  | some path =>
    if options.switches.contains .tokens then .listInput
    else if options.switches.contains .dumpTokens then .listTokens path
    else if options.switches.contains .dumpProgram then
      .showProgram path (options.format.getD .sexp)
    else .run path (options.entry.getD "main")

def Task.ofArguments (arguments : List String) : Option Task :=
  (readOptions arguments Options.initial).map Options.task

end Scriptlet.CommandLine
