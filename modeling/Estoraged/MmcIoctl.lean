import Estoraged.Interfaces

/-!
# MMC commands sent through ioctl

`mmc_ioc_cmd` of the kernel with the numbers the daemon sets; a field it leaves out is zero,
as after `= {}`. `data_ptr` is not kept: only the read of EXT_CSD sets it, and what is read
through it comes with the answer. The constants are those of `linux/mmc/mmc.h` and `core.h`.
-/

namespace Estoraged
set_option autoImplicit false

inductive IoctlRequest where
  | mmcIocCmd
  | mmcIocMultiCmd
deriving DecidableEq, Repr

structure MmcIocCmd where
  writeFlag : Int32 := 0
  opcode : UInt32 := 0
  arg : UInt32 := 0
  flags : UInt32 := 0
  blksz : UInt32 := 0
  blocks : UInt32 := 0
  cmdTimeoutMs : UInt32 := 0
deriving DecidableEq, Repr

/-! ## Opcodes and response flags -/

def mmcSwitch : UInt32 := 6

def mmcSendExtCsd : UInt32 := 8

def mmcSwitchModeWriteByte : UInt32 := 0x03

def extCsdCmdSetNormal : UInt32 := (1 : UInt32) <<< 0

def mmcRspPresent : UInt32 := (1 : UInt32) <<< 0

def mmcRspCrc : UInt32 := (1 : UInt32) <<< 2

def mmcRspBusy : UInt32 := (1 : UInt32) <<< 3

def mmcRspOpcode : UInt32 := (1 : UInt32) <<< 4

def mmcCmdAc : UInt32 := (0 : UInt32) <<< 5

def mmcCmdAdtc : UInt32 := (1 : UInt32) <<< 5

def mmcRspSpiS1 : UInt32 := (1 : UInt32) <<< 7

def mmcRspSpiBusy : UInt32 := (1 : UInt32) <<< 10

def mmcRspSpiR1 : UInt32 := mmcRspSpiS1

def mmcRspSpiR1B : UInt32 := mmcRspSpiS1 ||| mmcRspSpiBusy

def mmcRspR1 : UInt32 := mmcRspPresent ||| mmcRspCrc ||| mmcRspOpcode

def mmcRspR1B : UInt32 := mmcRspPresent ||| mmcRspCrc ||| mmcRspOpcode ||| mmcRspBusy

end Estoraged
