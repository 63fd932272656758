import VeaOS.Mm.PoolRuns
import VeaOS.Ks.SpinLockRuns
import VeaOS.Ks.TimerRuns
import VeaOS.Ks.DpcRuns
import VeaOS.Ks.ApcAttachRuns
import VeaOS.Mm.ControlAreaRuns
import VeaOS.Mm.DemandRuns
import VeaOS.Ks.GuardedRuns
import VeaOS.Ks.QueueTimeout
import VeaOS.Ks.WaitTermination
import VeaOS.Ks.Wakeups
import VeaOS.Vk.CellRuns
import VeaOS.Mm.BigPageRuns
import VeaOS.Ob.FailedInsertion
import VeaOS.Ob.DirectoryRuns
import VeaOS.Ob.OipTransfer
import VeaOS.Ob.OipOwnership
import VeaOS.Hct.InterruptRuns
import VeaOS.Mm.ImageLayout
import VeaOS.Ob.HelperCounts
import VeaOS.Ob.WalkReferences
import VeaOS.Ob.DeviceActionRuns
import VeaOS.Fat.AllocationRuns
import VeaOS.Ob.IoTimerRuns
import VeaOS.Nvme.AdminRuns
import VeaOS.Nvme.IoRuns
import VeaOS.Ahci.TransferRuns
import VeaOS.Lm.PageAllocatorRuns
import VeaOS.Mm.ContiguousFrames
import VeaOS.Mm.PageProtection
import VeaOS.Mm.BasedSections
import VeaOS.Mm.ViewGeometry
import VeaOS.Rtl.RelocationRuns
import VeaOS.Mm.SystemLoads
import VeaOS.Rtl.BackwardRun
import VeaOS.Rtl.ClearRuns
import VeaOS.Ob.LookupRounds
import VeaOS.Pt.ThreadSelection
import VeaOS.Rtl.StringConversion
import VeaOS.Rtl.FormattedPrint
import VeaOS.Ks.UserApcs
import VeaOS.Fat.ReadChunks
import VeaOS.Ob.OpenPaths
import VeaOS.Pm.PartitionRequests
import VeaOS.Pm.GptEntries
import VeaOS.Ahci.TrimRanges
import VeaOS.Ob.PartialMdl
import VeaOS.Nvme.PrpLists
import VeaOS.Ob.MountOrder
import VeaOS.Ob.PnpNotifyRuns
import VeaOS.Vocpi.TemplateItems
import VeaOS.Ob.TriageDump
import VeaOS.Vk.LoaderKeys
import VeaOS.Mm.BootRuns
