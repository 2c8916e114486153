import Cc1310Firmware.Bootloader.Register
import Cc1310Firmware.Bootloader.BootDecision
import Cc1310Firmware.Bootloader.Acknowledge
import Cc1310Firmware.Bootloader.InfoReport
import Cc1310Firmware.Bootloader.FailureHistory
import Cc1310Firmware.Bootloader.Transactions
import Cc1310Firmware.Host.HostFrames
import Cc1310Firmware.Host.FlashAgreement
import Cc1310Firmware.I2cSlave.RegisterFile
import Cc1310Firmware.I2cSlave.Snapshot
import Cc1310Firmware.I2cSlave.DumpTransparency
import Cc1310Firmware.Radio.Bursts
import Cc1310Firmware.I2cSlave.LoopbackWindow
import Cc1310Firmware.Bootloader.DataBounds
import Cc1310Firmware.Bootloader.RejectedTraffic
import Cc1310Firmware.Host.Framing
import Cc1310Firmware.Cli.WholeLines
import Cc1310Firmware.Host.TransferEnds
import Cc1310Firmware.Host.FactoryHex
import Cc1310Firmware.Host.CorruptFrames
import Cc1310Firmware.Host.CorruptData
import Cc1310Firmware.Bootloader.ReceiveArrays
import Cc1310Firmware.I2cSlave.StopRecords
import Cc1310Firmware.I2cSlave.WorkerArrays
import Cc1310Firmware.Radio.SyncFrames
import Cc1310Firmware.Radio.QueueAccounting
import Cc1310Firmware.Host.FactorySlot
import Cc1310Firmware.Host.BuildPipeline
import Cc1310Firmware.Host.HexRecords
import Cc1310Firmware.Analysis.MatchReceives
import Cc1310Firmware.Analysis.LogMatcher
import Cc1310Firmware.Analysis.RisingEdges
import Cc1310Firmware.Analysis.ClockModels
import Cc1310Firmware.Host.SetRole
import Cc1310Firmware.Host.ReleaseVersion
import Cc1310Firmware.Analysis.LossReport
import Cc1310Firmware.Analysis.LoggerRun
import Cc1310Firmware.Analysis.OverTheAir
