import Estoraged.Interaction
import Estoraged.Interpretation
import Estoraged.Interfaces
import Estoraged.Volume
import Estoraged.World
import Estoraged.Stages
import Estoraged.MountSafety
import Estoraged.FailedUnlock
import Estoraged.Recovery
import Estoraged.SoleEntry
import Estoraged.Keyslots
import Estoraged.KeyslotErase
import Estoraged.UnlockMountable
import Estoraged.BlockTransfer
import Estoraged.Medium
import Estoraged.WholeDrive
import Estoraged.LinearCongruential
import Estoraged.MultiplicativePeriod
import Estoraged.Pattern
import Estoraged.Zero
import Estoraged.TransferBounds
import Estoraged.OnTime
import Estoraged.BlockCover
import Estoraged.OverwritePaths
import Estoraged.PatternPeriod
import Estoraged.EraseRounds
import Estoraged.FlatMap
import Estoraged.FindDevice
import Estoraged.SearchOrder
import Estoraged.StorageObjects
import Estoraged.FormattedInput
import Estoraged.SysfsText
import Estoraged.MmcIoctl
import Estoraged.MmcTuning
import Estoraged.ExtCsdRegister
import Estoraged.Sanitize
import Estoraged.GetConfig
import Estoraged.ConfigPaths
import Estoraged.Sessions
import Estoraged.FilterTimer
import Estoraged.QueryEnds
import Estoraged.Service
import Estoraged.ServiceObjects
import Estoraged.EraseDevice
import Estoraged.EraseCalls
import Estoraged.DeviceRefinement
import Estoraged.GeometryCheck
import Estoraged.StatusProperties
import Estoraged.CallProtocol
import Estoraged.NamedVolume
import Estoraged.HandleProtocol
import Estoraged.PairedTables
import Estoraged.SharedHost
import Estoraged.ShellCommands
import Estoraged.ObjectServer
import Estoraged.Inventory
import Estoraged.ServiceInventory
