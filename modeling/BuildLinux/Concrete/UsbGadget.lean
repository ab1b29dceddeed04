/-
The kernel objects that the USB scripts of fs-overlay/sbin work on, and the
commands they issue.

A gadget is a configfs tree whose directories list user-created items.  The
kernel refuses to remove a directory that still has such items or that a
symbolic link points to.  The tree outlives a mount of configfs.  The mass-storage
image is exported through `lun.0/file` of the function and mounted separately.
Every changing command may also fail for reasons of its own, and then changes
nothing.  Names contain no white space; pathname expansion is modelled.
-/

import Mathlib.Data.List.AList
import BuildLinux.PathnameExpansion
import BuildLinux.CommandScript

namespace BuildLinux.Concrete.UsbGadget

open PathnameExpansion (expand Plain)
open CommandScript (Reply)

abbrev Name := String

abbrev Path := List Name

abbrev Listing (item : Type) := AList fun _ : Name => item

/-- A directory below `configs`: string languages, and links to functions. -/
structure Config where
  strings : Listing Unit
  links : Listing Name

/-- A gadget directory.  A function keeps the contents of its `lun.0/file`. -/
structure Gadget where
  osDesc : Listing Name
  configs : Listing Config
  functions : Listing Name
  strings : Listing Unit

def Config.created : Config := { strings := ∅, links := ∅ }

def Gadget.created : Gadget := { osDesc := ∅, configs := ∅, functions := ∅, strings := ∅ }

/-- `ls` does not show these. -/
def hidden (name : Name) : Bool := name.toList.head? == some '.'

/-! ### The tree of one gadget -/

def gadgetEntries : List Name :=
  ["UDC", "bDeviceClass", "bDeviceProtocol", "bDeviceSubClass", "bMaxPacketSize0", "bcdDevice",
    "bcdUSB", "configs", "functions", "idProduct", "idVendor", "os_desc", "strings"]

def configPaths (name : Name) (config : Config) : List Path :=
  ["configs", name] ::
    ((["MaxPower", "bmAttributes", "strings"] ++ config.links.keys).map
        fun entry => ["configs", name, entry]) ++
      config.strings.keys.map fun language => ["configs", name, "strings", language]

/-- The paths that an unquoted word of the scripts can be expanded to. -/
def Gadget.paths (gadget : Gadget) : List Path :=
  (gadgetEntries.map fun entry => [entry]) ++
    ((["b_vendor_code", "qw_sign", "use"] ++ gadget.osDesc.keys).map
      fun entry => ["os_desc", entry]) ++
    (gadget.configs.entries.flatMap fun entry => configPaths entry.1 entry.2) ++
    (gadget.functions.keys.map fun function => ["functions", function]) ++
    gadget.strings.keys.map fun language => ["strings", language]

def Gadget.hasDirectory (gadget : Gadget) : Path → Bool
  | [] => true
  | ["os_desc"] => true
  | ["strings", language] => language ∈ gadget.strings
  | ["configs", name] => name ∈ gadget.configs
  | ["configs", name, "strings", language] =>
      match gadget.configs.lookup name with
      | some config => language ∈ config.strings
      | none => false
  | _ => false

/-- The user-created items `ls` shows in a directory. -/
def Gadget.items (gadget : Gadget) : Path → List Name
  | ["configs"] => gadget.configs.keys.filter fun name => !hidden name
  | ["functions"] => gadget.functions.keys.filter fun name => !hidden name
  | ["strings"] => gadget.strings.keys.filter fun name => !hidden name
  | ["configs", name, "strings"] =>
      match gadget.configs.lookup name with
      | some config => config.strings.keys.filter fun name => !hidden name
      | none => []
  | _ => []

def Gadget.linksIn (gadget : Gadget) : Path → List Name
  | ["os_desc"] => gadget.osDesc.keys
  | ["configs", name] =>
      match gadget.configs.lookup name with
      | some config => config.links.keys
      | none => []
  | _ => []

def Gadget.configLinked (gadget : Gadget) (name : Name) : Bool :=
  gadget.osDesc.entries.any fun link => link.2 == name

def Gadget.functionLinked (gadget : Gadget) (function : Name) : Bool :=
  gadget.configs.entries.any fun entry => entry.2.links.entries.any fun link => link.2 == function

def Gadget.isEmpty (gadget : Gadget) : Bool :=
  gadget.osDesc.keys.isEmpty && gadget.configs.keys.isEmpty &&
    gadget.functions.keys.isEmpty && gadget.strings.keys.isEmpty

def Gadget.setConfig (gadget : Gadget) (name : Name) (config : Config) : Gadget :=
  { gadget with configs := gadget.configs.insert name config }

def Gadget.mkdir (gadget : Gadget) : Path → Option Gadget
  | ["strings", language] =>
      if language ∈ gadget.strings then none
      else some { gadget with strings := gadget.strings.insert language () }
  | ["functions", function] =>
      if function ∈ gadget.functions then none
      else some { gadget with functions := gadget.functions.insert function "" }
  | ["configs", name] =>
      if name ∈ gadget.configs then none
      else some (gadget.setConfig name Config.created)
  | ["configs", name, "strings", language] =>
      match gadget.configs.lookup name with
      | none => none
      | some config =>
          if language ∈ config.strings then none
          else some (gadget.setConfig name
            { config with strings := config.strings.insert language () })
  | _ => none

/-- `ln -s`; a function link needs its function and an `os_desc` link its config. -/
def Gadget.ln (gadget : Gadget) : Path → Path → Option Gadget
  | ["configs", target], ["os_desc", link] =>
      if target ∈ gadget.configs ∧ link ∉ gadget.osDesc then
        some { gadget with osDesc := gadget.osDesc.insert link target }
      else none
  | ["functions", target], ["configs", name, link] =>
      match gadget.configs.lookup name with
      | none => none
      | some config =>
          if target ∈ gadget.functions ∧ link ∉ config.links then
            some (gadget.setConfig name { config with links := config.links.insert link target })
          else none
  | _, _ => none

/-- `echo value > path`; only the backing file of a function is read again. -/
def Gadget.write (gadget : Gadget) (value : String) : Path → Option Gadget
  | ["functions", function, "lun.0", "file"] =>
      if function ∈ gadget.functions then
        some { gadget with functions := gadget.functions.insert function value }
      else none
  | path => if gadget.hasDirectory path.dropLast then some gadget else none

def Gadget.rm (gadget : Gadget) : Path → Option Gadget
  | ["os_desc", link] =>
      if link ∈ gadget.osDesc then some { gadget with osDesc := gadget.osDesc.erase link }
      else none
  | ["configs", name, link] =>
      match gadget.configs.lookup name with
      | none => none
      | some config =>
          if link ∈ config.links then
            some (gadget.setConfig name { config with links := config.links.erase link })
          else none
  | _ => none

/-- `rmdir`, refused while the directory has user-created items or is linked to. -/
def Gadget.rmdir (gadget : Gadget) : Path → Option Gadget
  | ["strings", language] =>
      if language ∈ gadget.strings then
        some { gadget with strings := gadget.strings.erase language }
      else none
  | ["functions", function] =>
      if function ∈ gadget.functions ∧ gadget.functionLinked function = false then
        some { gadget with functions := gadget.functions.erase function }
      else none
  | ["configs", name] =>
      match gadget.configs.lookup name with
      | none => none
      | some config =>
          if config.strings.keys = [] ∧ config.links.keys = [] ∧
              gadget.configLinked name = false then
            some { gadget with configs := gadget.configs.erase name }
          else none
  | ["configs", name, "strings", language] =>
      match gadget.configs.lookup name with
      | none => none
      | some config =>
          if language ∈ config.strings then
            some (gadget.setConfig name { config with strings := config.strings.erase language })
          else none
  | _ => none

/-! ### Commands relative to a gadget directory -/

inductive GadgetCommand where
  | mkdir (path : Path)
  | echo (value : String) (path : Path)
  | ln (target link : Path)
  | rm (word : Path)
  | rmdir (word : Path)

/-- `rm` and `rmdir` go on after an operand they cannot remove. -/
def removeEach (remove : Gadget → Path → Option Gadget) : Gadget → List Path → Bool × Gadget
  | gadget, [] => (true, gadget)
  | gadget, path :: rest =>
      match remove gadget path with
      | some after => removeEach remove after rest
      | none => (false, (removeEach remove gadget rest).2)

def orUnchanged (gadget : Gadget) (after : Option Gadget) : Bool × Gadget :=
  match after with
  | some after => (true, after)
  | none => (false, gadget)

def GadgetCommand.apply (gadget : Gadget) : GadgetCommand → Bool × Gadget
  | .mkdir path => orUnchanged gadget (gadget.mkdir path)
  | .echo value path => orUnchanged gadget (gadget.write value path)
  | .ln target link => orUnchanged gadget (gadget.ln target link)
  | .rm word => removeEach Gadget.rm gadget (expand gadget.paths word)
  | .rmdir word => removeEach Gadget.rmdir gadget (expand gadget.paths word)

/-- `ls` of several directories heads each of them by its name. -/
def Gadget.ls (gadget : Gadget) (word : Path) : List Path :=
  match expand gadget.paths word with
  | [directory] => (gadget.items directory).map fun name => [name]
  | directories =>
      directories.flatMap fun directory =>
        (directory.dropLast ++ [directory.getLastD "" ++ ":"]) ::
          (gadget.items directory).map fun name => [name]

def Gadget.find (gadget : Gadget) (word : Path) : List Path :=
  (expand gadget.paths word).flatMap fun directory =>
    (gadget.linksIn directory).map fun link => directory ++ [link]

/-- The words an unquoted variable holding this output stands for. -/
def Gadget.unquoted (gadget : Gadget) (output : List Path) : List Path :=
  output.flatMap (expand gadget.paths)

end BuildLinux.Concrete.UsbGadget
