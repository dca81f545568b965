/-!
# Command line arguments

The program takes a command and its arguments:

    info IMAGE             ls IMAGE
    stat IMAGE NAME        cat IMAGE NAME
    rm IMAGE NAME          add IMAGE FILE [-n NAME]

`Command.parse?` reads them, and gives nothing for arguments that are not of this form.

* The command comes first and is spelled out exactly.
* The option of `add` may stand anywhere after the command, as `-n x`, `-nx`, `-n=x`, `--name x` or
  `--name=x`, but only once. Its value may be empty; as an argument of its own it must not look
  like an option.
* After `--` every argument is positional, also one that looks like an option. A lone `-` never
  looks like one.
* The path of an image or of a host file must not be empty; a name may.

The program also explains itself, to `help` as a command and to `-h` and `--help` anywhere before
`--`. These explanations are left out: here such arguments are no command like any others.
-/

namespace FlatVolume

/-- What the program is asked to do. -/
inductive Command where
  /-- Print the geometry and the free space of a volume. -/
  | info (image : String)
  /-- List the files on a volume. -/
  | list (image : String)
  /-- Print the size of a file. -/
  | stat (image name : String)
  /-- Write a file's contents to standard output. -/
  | cat (image name : String)
  /-- Copy a host file onto a volume, under the name given or else its own. -/
  | add (image file : String) (name : Option String)
  /-- Delete a file from a volume. -/
  | remove (image name : String)
deriving DecidableEq, Repr

namespace CommandLine

/-- Whether an argument looks like an option. -/
def looksLikeOption (arg : String) : Bool := arg.startsWith "-" && arg != "-"

/-- What is left of an argument behind a beginning that it has. -/
def after? (beginning arg : String) : Option String :=
  if arg.startsWith beginning then some (String.ofList (arg.toList.drop beginning.length))
  else none

/-- The positional arguments, and the value of the option if it was given. -/
structure Arguments where
  positional : List String
  name : Option String
deriving DecidableEq, Repr

namespace Arguments

/-- A positional argument in front of the others. -/
def cons (arg : String) (a : Arguments) : Arguments := { a with positional := arg :: a.positional }

/-- The option in front of the others; it must not be among them. -/
def consName? (value : String) (a : Arguments) : Option Arguments :=
  match a.name with
  | none => some { a with name := some value }
  | some _ => none

/-- The value that follows an option within its own argument: `x` in `-nx` and in `-n=x`. -/
def attachedValue? (arg : String) : Option String :=
  match after? "--name=" arg with
  | some value => some value
  | none =>
    match after? "-n=" arg with
    | some value => some value
    | none => (after? "-n" arg).filter (· != "")

/-- **Sorts arguments** into positional ones and the option, which only some commands know. -/
def sort? (knowsName : Bool) : List String → Option Arguments
  | [] => some ⟨[], none⟩
  | "--" :: rest => some ⟨rest, none⟩
  | arg :: rest =>
    if looksLikeOption arg then
      if !knowsName then none
      else if arg = "-n" ∨ arg = "--name" then
        match rest with
        | value :: rest =>
          if looksLikeOption value then none else (sort? knowsName rest).bind (consName? value)
        | [] => none
      else
        match attachedValue? arg with
        | some value => (sort? knowsName rest).bind (consName? value)
        | none => none
    else (sort? knowsName rest).map (cons arg)

end Arguments

end CommandLine

namespace Command

open CommandLine

/-- A path that can be given at all. -/
def path? (arg : String) : Option String := if arg = "" then none else some arg

/-- The one argument of a command about a whole volume. -/
def image? (args : List String) : Option String :=
  match Arguments.sort? false args with
  | some ⟨[image], _⟩ => path? image
  | _ => none

/-- The two arguments of a command about one file of a volume. -/
def imageAndName? (args : List String) : Option (String × String) :=
  match Arguments.sort? false args with
  | some ⟨[image, name], _⟩ => (path? image).map (·, name)
  | _ => none

/-- **Reads the arguments of the program.** A request for help (`help`, `-h`, `--help`), which the
    program answers with a text of its own, is left out and counts as no command. -/
def parse? : List String → Option Command
  | "info" :: args => (image? args).map info
  | "ls" :: args => (image? args).map list
  | "stat" :: args => (imageAndName? args).map fun (image, name) => stat image name
  | "cat" :: args => (imageAndName? args).map fun (image, name) => cat image name
  | "rm" :: args => (imageAndName? args).map fun (image, name) => remove image name
  | "add" :: args =>
    match Arguments.sort? true args with
    | some ⟨[image, file], name⟩ => do return add (← path? image) (← path? file) name
    | _ => none
  | _ => none

end Command

end FlatVolume
