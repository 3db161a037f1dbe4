import Softwinner.Bluetooth.Baud
import Softwinner.Bluetooth.ConfigFile
import Softwinner.Bluetooth.PatchFile

/-!
# Configuring the Bluetooth controller

`hw_config_start`, `rtk_get_lmp`, `rtk_get_eversion` and the callback `hw_config_cback` of
`hardware.c`, which ask the controller for its version, change the baud rate and download the
firmware, one command after the other.  The stack (`bt_vendor_cbacks`) gives the buffers, transmits
the commands and calls back with the events of the controller; it is `Env`, fixed for one call.

The state has the library's variables, the one command that the controller has not answered yet,
and a log of what the library has asked of the stack and of the serial port.  A callback gives
`none` when it copies from outside the image or reads a variable that is not set.
-/

namespace Softwinner.Bluetooth

open Framework

/-! ## Commands, events, effects -/

def hciVscH5Init : ℕ := 0xFCEE
def hciVscUpdateBaudrate : ℕ := 0xFC17
def hciVscDownloadFwPatch : ℕ := 0xFC20
def hciVendorReadRtkRomVersion : ℕ := 0xFC6D
def hciReadLmp : ℕ := 0x1001

/-- `PATCH_DATA_FIELD_MAX_SIZE`. -/
def patchDataFieldMaxSize : ℕ := 252

/-- A command, as the bytes in its buffer. -/
structure Command where
  opcode : ℕ
  bytes : Bytes
deriving DecidableEq

/-- A command with its length byte and its parameters. -/
def hciCommand (opcode : ℕ) (params : Bytes) : Command :=
  ⟨opcode, toLe 2 opcode ++ (toLe 1 params.length ++ params)⟩

/-- The parts of a command complete event that are read: the opcode, the status, the byte behind
the status, and the word at `LPM_CMD_PARAM_SIZE`. -/
structure Event where
  opcode : ℕ
  status : ℕ
  ret : UInt8
  lmp : ℕ

/-- The callbacks that are given to `xmit_cb`. -/
inductive Callback
  | rtkGetLmp
  | rtkGetLmpCback
  | hwConfigCback
deriving DecidableEq

/-- What the library does outside itself.  `setBaud` has the speed of the host's port. -/
inductive Effect
  | alloc
  | xmit (c : Command)
  | deallocCommand
  | deallocEvent
  | fwcfg (success : Bool)
  | lpm (status : ℕ)
  | setBaud (speed : ℕ)
  | setHwFctrl (on : Bool)
deriving DecidableEq

/-- The files of the firmware directory that can be read, and whether the stack gives a buffer,
accepts a command, and whether there is memory for an image. -/
structure Env where
  files : String → Option Bytes
  alloc : Bool
  xmit : Bool
  mallocs : Bool

/-! ## The download -/

/-- The variables of the download.  `buf` is empty when it is null; `bufpatch` is an offset into
it, or null. -/
structure Transfer where
  buf : Bytes
  bufpatch : Option ℕ
  iCurIndex : UInt8
  iEndIndex : UInt8
  iLastPacketLen : UInt8
  iTotalIndex : UInt8

namespace Transfer

def reset : Transfer := ⟨[], none, 0, 0, 0, 0⟩

/-- `iAdditionPkt`; `commands` is 4, 3 or 2. -/
def iAdditionPkt (iEndIndex : UInt8) (commands : ℕ) : UInt8 :=
  if (iEndIndex.toNat + commands) % 8 ≠ 0 then
    UInt8.ofNat (8 - (iEndIndex.toNat + commands) % 8)
  else 0

/-- The download of an image, before its first packet. -/
def start (buf : Bytes) (commands : ℕ) : Transfer :=
  let iEndIndex := UInt8.ofNat ((buf.length - 1) / patchDataFieldMaxSize)
  let iLastPacketLen := UInt8.ofNat (buf.length % patchDataFieldMaxSize)
  { buf := buf
    bufpatch := some 0
    iCurIndex := 0
    iEndIndex := iEndIndex
    iLastPacketLen := if iLastPacketLen = 0 then UInt8.ofNat patchDataFieldMaxSize
      else iLastPacketLen
    iTotalIndex := iAdditionPkt iEndIndex commands + iEndIndex }

variable (t : Transfer)

/-- A download command has been answered. -/
def acked : Transfer :=
  { t with
    bufpatch := if t.iCurIndex < t.iEndIndex then t.bufpatch.map (· + patchDataFieldMaxSize)
      else t.bufpatch
    iCurIndex := t.iCurIndex + 1 }

/-- The index of the next packet, and its length `iCurLen`. -/
def next : Transfer × UInt8 :=
  if t.iCurIndex < t.iEndIndex then
    ({ t with iCurIndex := t.iCurIndex &&& 0x7F }, UInt8.ofNat patchDataFieldMaxSize)
  else if t.iCurIndex = t.iEndIndex then
    if t.iCurIndex = t.iTotalIndex then
      ({ t with iCurIndex := t.iCurIndex ||| 0x80 }, t.iLastPacketLen)
    else
      ({ t with iCurIndex := t.iCurIndex &&& 0x7F }, t.iLastPacketLen)
  else if t.iCurIndex < t.iTotalIndex then
    ({ t with iCurIndex := t.iCurIndex &&& 0x7F, bufpatch := none }, 0)
  else
    ({ t with iCurIndex := t.iCurIndex ||| 0x80, bufpatch := none }, 0)

/-- The bytes that `hci_download_patch_h4` copies; none are copied from a null pointer. -/
def read (len : UInt8) : Option Bytes :=
  match t.bufpatch with
  | some off => fetch t.buf off len.toNat
  | none => if len = 0 then some [] else none

end Transfer

/-! ## The variables of the library -/

/-- `hw_cfg_cb.state`, 0 being `idle`. -/
inductive HwState
  | idle
  | start
  | setUartBaudHost
  | setUartBaudController
  | dlFwPatch
deriving DecidableEq

/-- The variables; `alarm` is whether one of the two timeouts is armed, and `pending` the callback
and the opcode of the command that has not been answered. -/
structure Vendor where
  state : HwState
  lmpVersion : ℕ
  gEVersion : ℕ
  needDownloadFw : Bool
  settings : Settings
  transfer : Transfer
  iIndexRx : UInt8
  alarm : Bool
  pending : Option (Callback × ℕ)
  log : List Effect

namespace Vendor

/-- The process has just been started. -/
def initial : Vendor :=
  { state := .idle
    lmpVersion := 0
    gEVersion := 0
    needDownloadFw := true
    settings := ⟨0, false, true⟩
    transfer := Transfer.reset
    iIndexRx := 0
    alarm := false
    pending := none
    log := [] }

variable (v : Vendor)

def emit (effects : List Effect) : Vendor := { v with log := v.log ++ effects }

/-- `xmit_cb`; the stack takes the buffer of a command that it accepts. -/
def xmit (env : Env) (c : Command) (callback : Callback) : Vendor :=
  if env.xmit then
    { v with pending := some (callback, c.opcode), log := v.log ++ [.xmit c] }
  else v

/-! ## The callback of the configuration -/

/-- `hw_config_set_controller_baudrate`. -/
def hwConfigSetControllerBaudrate (env : Env) : Vendor × Bool :=
  ({ v with state := .setUartBaudHost }.xmit env
    (hciCommand hciVscUpdateBaudrate (toLe 4 v.settings.baudrate)) .hwConfigCback, env.xmit)

/-- `hci_download_patch_h4`. -/
def hciDownloadPatchH4 (env : Env) (index : UInt8) (data : Bytes) : Vendor × Bool :=
  ({ v with state := .dlFwPatch }.xmit env
    (hciCommand hciVscDownloadFwPatch (index :: data)) .hwConfigCback, env.xmit)

/-- The flow control of the host, once the last packet has been sent. -/
def changeFlowControl : Vendor :=
  if v.transfer.iCurIndex &&& 0x80 ≠ 0 ∧ v.settings.gNeedToSetHWFlowControl then
    v.emit [.setHwFctrl v.settings.gHwFlowControlEnable]
  else v

/-- An answer has this index: the download has ended. -/
def Ends (iTotalIndex iIndexRx : UInt8) : Prop :=
  iIndexRx &&& 0x80 ≠ 0 ∨ iIndexRx = iTotalIndex

instance (iTotalIndex iIndexRx : UInt8) : Decidable (Ends iTotalIndex iIndexRx) := by
  unfold Ends
  infer_instance

/-- The buffer of the callback is given back, and the stack told that all is done. -/
def complete : Vendor :=
  { v.emit [.deallocCommand, .fwcfg true] with state := .idle }

/-- The next packet of the download. -/
def sendPacket (env : Env) : Option (Vendor × Bool) := do
  let (transfer, iCurLen) := v.transfer.next
  let data ← transfer.read iCurLen
  let (v', ok) := { v with transfer := transfer }.hciDownloadPatchH4 env transfer.iCurIndex data
  some (v'.changeFlowControl, ok)

/-- `HW_CFG_DL_FW_PATCH`. -/
def downloadFw (env : Env) : Option Event → Option (Vendor × Bool)
  | none => none
  | some e =>
    if e.opcode = hciVscDownloadFwPatch then
      let v := { v with transfer := v.transfer.acked, iIndexRx := e.ret }
      if Ends v.transfer.iTotalIndex e.ret then
        some ({ v with transfer := { v.transfer with buf := [] } }.complete, true)
      else
        v.sendPacket env
    else
      v.sendPacket env

/-- The version of the chip, as the event has it. -/
def readEversion : Option Event → Vendor
  | none => v
  | some e =>
    if v.lmpVersion = romLmp8723a then v
    else
      { v with
        alarm := false
        gEVersion :=
          if e.status = 0 then e.ret.toNat else if e.status = 1 then 0 else v.gEVersion }

/-- `rtk_get_bt_config`: the file and its settings; a file that cannot be read is no error. -/
def rtkGetBtConfig (env : Env) (name : String) (settings : Settings) : Option (Bytes × Settings) :=
  match env.files name with
  | none => some ([], settings)
  | some file => (rtkParseConfigFile file settings).map fun settings => (file, settings)

/-- The firmware from `rtk_get_bt_firmware`, for the controller. -/
def rtkGetBtFirmware (env : Env) (name : String) (config : Bytes) : Option Firmware :=
  match env.files name with
  | none => some .absent
  | some fw =>
    if v.lmpVersion = romLmp8723a then singlePatch fw config env.mallocs
    else multiEpatch fw v.lmpVersion v.gEVersion config env.mallocs

/-- The two files of the controller. -/
def loadFiles (env : Env) : Option (Firmware × Bytes × Settings) := do
  let entry ← getPatchEntry v.lmpVersion patchTable
  let (config, settings) ←
    rtkGetBtConfig env entry.configName ⟨0, false, v.settings.gHwFlowControlEnable⟩
  let firmware ← v.rtkGetBtFirmware env entry.patchName config
  some (firmware, config, settings)

/-- The commands beside the packets 1, 2, ..: the ones before the download, and the packet 0. -/
def countedCommands (lmpVersion baudrate : ℕ) : ℕ :=
  if baudrate ≠ 0 ∧ lmpVersion ≠ romLmp8723a then 4
  else if (baudrate ≠ 0 ∧ lmpVersion = romLmp8723a) ∨ (baudrate = 0 ∧ lmpVersion ≠ romLmp8723a) then
    3
  else 2

/-- `HW_CFG_START`. -/
def hwCfgStart (env : Env) (mem : Option Event) : Option (Vendor × Bool) := do
  let v := v.readEversion mem
  let (firmware, config, settings) ← v.loadFiles env
  let v := { v with settings := settings, transfer := Transfer.reset, iIndexRx := 0 }
  match firmware with
  | .absent => some (v.complete, true)
  | .refused => some ({ v with needDownloadFw := false }.complete, true)
  | .image buf =>
    if buf ≠ [] ∧ v.needDownloadFw then
      let v := { v with
        transfer := Transfer.start buf (countedCommands v.lmpVersion settings.baudrate) }
      if config = [] then v.downloadFw env mem
      else some (v.hwConfigSetControllerBaudrate env)
    else
      some (v.complete, true)

/-- The part of `hw_config_cback` that has a buffer for a command; it gives whether to go on. -/
def hwConfigState (env : Env) (mem : Option Event) : Option (Vendor × Bool) :=
  match v.state with
  | .idle => some (v, false)
  | .start => v.hwCfgStart env mem
  | .setUartBaudController => some (v.hwConfigSetControllerBaudrate env)
  | .setUartBaudHost =>
    (v.emit [.setBaud (hostSpeed v.settings.baudrate)]).downloadFw env mem
  | .dlFwPatch => v.downloadFw env mem

def hwConfigCback (env : Env) (mem : Option Event) : Option Vendor := do
  let (v, isProceeding) ←
    if env.alloc then (v.emit [.alloc]).hwConfigState env mem else some (v, false)
  let v := if mem.isSome then v.emit [.deallocEvent] else v
  if isProceeding then
    some v
  else
    let freed : List Effect := if env.alloc then [.deallocCommand] else []
    some { v.emit (freed ++ [.fwcfg false]) with state := .idle }

/-! ## The commands in front of it -/

/-- `rtk_get_eversion`; it writes through the buffer without a look at it. -/
def rtkGetEversion (env : Env) : Option Vendor :=
  if env.alloc then
    some { (v.emit [.alloc]).xmit env (hciCommand hciVendorReadRtkRomVersion []) .hwConfigCback with
      alarm := true }
  else none

/-- `rtk_get_lmp`, the callback of the first command; it does not give the event back. -/
def rtkGetLmp (env : Env) : Option Vendor :=
  if env.alloc then
    some { (v.emit [.alloc]).xmit env (hciCommand hciReadLmp []) .rtkGetLmpCback with
      alarm := true }
  else none

def rtkGetLmpCback (env : Env) (e : Event) : Option Vendor := do
  let v := { v with alarm := false }
  let v ←
    if e.status = 0 then
      let v := { v with lmpVersion := e.lmp }
      if e.lmp = romLmp8723a then v.hwConfigCback env none else v.rtkGetEversion env
    else some v
  some (v.emit [.lpm e.status, .deallocEvent])

/-- `hw_config_start`; what `xmit_cb` returns is not looked at. -/
def hwConfigStart (env : Env) : Vendor :=
  let v := { v with state := .idle, pending := none }
  if env.alloc then
    { v.emit [.alloc] with state := .start }.xmit env ⟨hciVscH5Init, toLe 2 hciVscH5Init⟩ .rtkGetLmp
  else
    v.emit [.fwcfg false]

/-- `rtk_get_lmp_timeout` and `rtk_get_eversion_timeout`. -/
def timeout : Vendor :=
  { v.emit [.fwcfg true] with alarm := false, needDownloadFw := false }

/-- The callback for an event. -/
def callback (env : Env) (e : Event) : Callback → Option Vendor
  | .rtkGetLmp => v.rtkGetLmp env
  | .rtkGetLmpCback => v.rtkGetLmpCback env e
  | .hwConfigCback => v.hwConfigCback env (some e)

end Vendor

/-! ## The whole -/

/-- `BT_VND_OP_FW_CFG` behind a power cycle of the controller, the answer to the command that is
outstanding, and the alarm. -/
inductive Act
  | fwCfg
  | reply (e : Event)
  | alarm

/-- One event, with what the stack does during it. -/
def step (v : Vendor) : Env × Act → Option Vendor
  | (env, .fwCfg) => some (v.hwConfigStart env)
  | (env, .reply e) =>
    match v.pending with
    | none => none
    | some (callback, opcode) =>
      if e.opcode = opcode then { v with pending := none }.callback env e callback else none
  | (_, .alarm) => if v.alarm then some v.timeout else none

end Softwinner.Bluetooth
