/-
The USB scripts of fs-overlay/sbin, command by command.

`setv` and `run` end the script with status 1 when their command fails.  A
function that returns with a status ends the script with it, since every script
only calls one function.  Messages are left out.
-/

import BuildLinux.Concrete.UsbCommands

namespace BuildLinux.Concrete.UsbScripts

open CommandScript (Script)
open CommandScript.Script (run test output orElse andThen each child)
open UsbGadget (Name Path GadgetCommand)
open UsbCommands (Command Words textOf)

abbrev UsbScript := Script Command Words

def configfsError : UsbScript Unit := .exit 1

def inGadget (changes : List GadgetCommand) : UsbScript Unit :=
  each (fun change => run (.inGadget change)) changes

/-! ### What ums.sh and acm.sh share -/

/-- From the test of the mount point to the first command in the new gadget. -/
def create (usbGadget : Name) (body : String → UsbScript Unit) : UsbScript Unit := do
  orElse .testDirConfigfsMount (run .mkdirConfigfsMount)
  andThen .mountpointConfigfs configfsError
  let serial ← output .serial
  run .mountConfigfs
  run (.cd .usbGadgetDir)
  run (.mkdirGadget usbGadget)
  run (.cdInto usbGadget)
  body (textOf serial)

def removeConfig (cfg : Path) : UsbScript Unit := do
  let functions ← output (.find ("configs" :: cfg))
  each (fun func => run (.inGadget (.rm func))) functions
  let strings ← output (.ls ("configs" :: cfg ++ ["strings"]))
  each (fun str => run (.inGadget (.rmdir ("configs" :: cfg ++ "strings" :: str)))) strings
  run (.inGadget (.rmdir ("configs" :: cfg)))

def removeItems : UsbScript Unit := do
  let configs ← output (.ls ["configs"])
  each removeConfig configs
  let functions ← output (.ls ["functions"])
  each (fun func => run (.inGadget (.rmdir ("functions" :: func)))) functions
  let strings ← output (.ls ["strings"])
  each (fun str => run (.inGadget (.rmdir ("strings" :: str)))) strings

def removeGadget (usbGadget : Name) : UsbScript Unit := do
  run (.cd .root)
  run (.rmdirGadget usbGadget)
  run .umountConfigfs

/-- `stop`, with what it does first in an existing gadget. -/
def stopGadget (usbGadget : Name) (first : UsbScript Unit) : UsbScript Unit := do
  if ← test (.testDirGadget usbGadget) then
    run (.cd (.gadget usbGadget))
    first
    removeItems
    removeGadget usbGadget
  else
    andThen .mountpointConfigfs (run .umountConfigfs)

/-! ### ums.sh -/

namespace Ums

def usbGadget : Name := "rockchip"

def gadgetId : String := "0x0000"

def gadgetInstance : Name := "mass_storage.0"

def umsFile : String := "/userdata/ums.img"

/-- `lun_file`, below the gadget directory. -/
def lunFile : Path := ["functions", gadgetInstance, "lun.0", "file"]

def startTree (serial : String) : List GadgetCommand :=
  [.echo "0x2207" ["idVendor"], .echo "0x0310" ["bcdDevice"], .echo "0x0200" ["bcdUSB"],
    .mkdir ["strings", "0x409"],
    .echo serial ["strings", "0x409", "serialnumber"],
    .echo "rockchip" ["strings", "0x409", "manufacturer"],
    .echo "rk3568" ["strings", "0x409", "product"],
    .mkdir ["functions", gadgetInstance],
    .mkdir ["configs", "b.1"],
    .mkdir ["configs", "b.1", "strings", "0x409"],
    .echo "0x1" ["os_desc", "b_vendor_code"],
    .echo "MSFT100" ["os_desc", "qw_sign"],
    .echo "500" ["configs", "b.1", "MaxPower"],
    .ln ["configs", "b.1"] ["os_desc", "b.1"],
    .echo gadgetId ["idProduct"],
    .ln ["functions", gadgetInstance] ["configs", "b.1", "f1"]]

def start : UsbScript Unit :=
  create usbGadget fun serial => inGadget (startTree serial)

def bind : UsbScript Unit := do
  let udc ← output .listUdc
  run (.echoGadget usbGadget (textOf udc) ["UDC"])

def removeDescs : UsbScript Unit := do
  let descCfgs ← output (.find ["os_desc"])
  each (fun desc => run (.inGadget (.rm desc))) descCfgs

def stop : UsbScript Unit :=
  stopGadget usbGadget removeDescs

/-- `setv "${ums_file}" "${lun_file}"` -/
def exportImage : UsbScript Unit :=
  run (.echoGadget usbGadget umsFile lunFile)

def enable : UsbScript Unit := do
  andThen .mountpointUms (run .umountUms)
  exportImage

def mountImage : UsbScript Unit :=
  orElse .mountpointUms (run .mountUms)

def disable : UsbScript Unit := do
  run (.echoGadget usbGadget "" lunFile)
  mountImage

def createImage : UsbScript Unit := do
  run .truncateUms
  run .mkfsUms

def follow (usbState : Words) : UsbScript Unit :=
  if textOf usbState = "CONFIGURED" then enable else disable

def update : UsbScript Unit := do
  run .mkdirUms
  orElse .testFileUms createImage
  let usbState ← output .usbState
  follow usbState

end Ums

/-! ### acm.sh -/

namespace Acm

def usbGadget : Name := "acm_gadget"

def gadgetInstance : Name := "acm.usb0"

def startTree (serial : String) : List GadgetCommand :=
  [.echo "0x1d6b" ["idVendor"], .echo "0x0104" ["idProduct"], .echo "0x0100" ["bcdDevice"],
    .echo "0x0200" ["bcdUSB"],
    .mkdir ["strings", "0x409"],
    .echo serial ["strings", "0x409", "serialnumber"],
    .echo "RK3562" ["strings", "0x409", "manufacturer"],
    .echo "ACM USB Device" ["strings", "0x409", "product"],
    .mkdir ["configs", "c.1"],
    .mkdir ["configs", "c.1", "strings", "0x409"],
    .echo "ACM Config" ["configs", "c.1", "strings", "0x409", "configuration"],
    .echo "120" ["configs", "c.1", "MaxPower"],
    .mkdir ["functions", gadgetInstance],
    .ln ["functions", gadgetInstance] ["configs", "c.1", "f1"]]

def start : UsbScript Unit :=
  create usbGadget fun serial =>
    inGadget (startTree (if serial = "" then "1234567890" else serial))

def bind : UsbScript Unit := do
  let udc ← output .listUdc
  if textOf udc = "" then .exit 1
  else run (.echoGadget usbGadget (textOf udc) ["UDC"])

def stop : UsbScript Unit :=
  stopGadget usbGadget (.done ())

end Acm

/-! ### usb_mode.sh -/

/-- A script as a process of its own. -/
def process (script : UsbScript Unit) : UsbScript Unit :=
  .call .startShell fun _ => script

/-- `script || exit 1` -/
def runScript (script : UsbScript Unit) : UsbScript Unit := do
  let status ← child (process script)
  if status = 0 then .done () else .exit 1

inductive Mode where
  | umsEn
  | umsEnable
  | umsDisable
  | umsStop
  | acmEn
  | acmStop
  deriving DecidableEq

def umsEn : UsbScript Unit := do
  runScript Ums.start
  runScript Ums.bind
  let _ ← test (.echoHotplug "/sbin/ums_hotplug.sh")
  runScript Ums.update
  run (.echoUsbConfig "ums")

def umsStop : UsbScript Unit := do
  runScript Ums.stop
  run (.echoUsbConfig "")

def acmEn : UsbScript Unit := do
  runScript Acm.start
  runScript Acm.bind
  run (.echoUsbConfig "acm")

def acmStop : UsbScript Unit := do
  runScript Acm.stop
  run (.echoUsbConfig "")

def usbMode : Mode → UsbScript Unit
  | .umsEn => umsEn
  | .umsEnable => runScript Ums.enable
  | .umsDisable => runScript Ums.disable
  | .umsStop => umsStop
  | .acmEn => acmEn
  | .acmStop => acmStop

end BuildLinux.Concrete.UsbScripts
