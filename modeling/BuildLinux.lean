import BuildLinux.TransitionSystem
import BuildLinux.DatagramChannel
import BuildLinux.Responder
import BuildLinux.ShiftRegister
import BuildLinux.CommandScript
import BuildLinux.ScriptPool
import BuildLinux.PathnameExpansion
import BuildLinux.ShellText
import BuildLinux.PathWalk
import BuildLinux.BoundedPolling
import BuildLinux.ByteStores
import BuildLinux.PhaseCounts
import BuildLinux.PointerWalk
import BuildLinux.FirstFit
import BuildLinux.SendReceive
import BuildLinux.CStrings
import BuildLinux.ResourceLedger
import BuildLinux.LockedSections
import BuildLinux.MatchedPairs
import BuildLinux.DecimalText
import BuildLinux.Concrete.UdpProtocol
import BuildLinux.Concrete.UdpReceivers
import BuildLinux.Concrete.UdpSystem
import BuildLinux.Concrete.UdpAccounting
import BuildLinux.Concrete.Crc16Ccitt
import BuildLinux.Concrete.UsbGadget
import BuildLinux.Concrete.UsbCommands
import BuildLinux.Concrete.UsbScripts
import BuildLinux.Concrete.UsbExclusivity
import BuildLinux.Concrete.UsbConcurrency
import BuildLinux.Concrete.UsbModes
import BuildLinux.Concrete.UsbTree
import BuildLinux.Concrete.UsbTeardown
import BuildLinux.Concrete.UsbDiskHotplug
import BuildLinux.Concrete.UpgradePackage
import BuildLinux.Concrete.UpgradeChecks
import BuildLinux.Concrete.UpgradeFailure
import BuildLinux.Concrete.PixelConvert
import BuildLinux.Concrete.DisplayPipeline
import BuildLinux.Concrete.FrameBuffers
import BuildLinux.Concrete.LedLock
import BuildLinux.Concrete.VideoMemPool
import BuildLinux.Concrete.Mp4Writer
import BuildLinux.Concrete.FileBrowser
import BuildLinux.Concrete.LvglPaths
import BuildLinux.Concrete.DebouncedKey
import BuildLinux.Concrete.VideoPlayer
import BuildLinux.Concrete.PageCache
import BuildLinux.Concrete.V4l2Device
import BuildLinux.Concrete.V4l2Buffers
import BuildLinux.Concrete.V4l2Operations
import BuildLinux.Concrete.PlatformBus
import BuildLinux.Concrete.BrowserNavigation
import BuildLinux.Concrete.Thumbnails
import BuildLinux.Concrete.PatchTargets
import BuildLinux.Concrete.Framebuffer
import BuildLinux.Concrete.FramebufferOwnership
import BuildLinux.Concrete.FramebufferPanning
import BuildLinux.Concrete.MediaNames
import BuildLinux.Concrete.ProgressSlider
import BuildLinux.Concrete.PictureScaling
import BuildLinux.Concrete.PictureMerging
import BuildLinux.Concrete.MjpegConverter
import BuildLinux.Concrete.DispManager
import BuildLinux.Concrete.FbDevice
import BuildLinux.Concrete.VideoMemFill
import BuildLinux.Concrete.FbGeometry
import BuildLinux.Concrete.V4l2Formats
import BuildLinux.Concrete.PhyReset
import BuildLinux.Concrete.ProjectorDriver
import BuildLinux.Concrete.HapticDriver
import BuildLinux.Concrete.V4l2Release
import BuildLinux.Concrete.LumaFrame
import BuildLinux.Concrete.FramebufferColours
import BuildLinux.Concrete.SifFrame
import BuildLinux.Concrete.SifRotation
import BuildLinux.Concrete.FrameRotation
import BuildLinux.Concrete.FramebufferDrawing
import BuildLinux.Concrete.ScreenRectangle
import BuildLinux.NumberText
import BuildLinux.OperandPairs
import BuildLinux.Concrete.KconfigExpr
import BuildLinux.Concrete.KconfigTransform
import BuildLinux.Concrete.KconfigConditions
import BuildLinux.Concrete.KconfigEquality
import BuildLinux.Concrete.KconfigDuplicates
import BuildLinux.Concrete.KconfigCalculation
import BuildLinux.Concrete.KconfigValues
import BuildLinux.Concrete.KconfigMemo
import BuildLinux.Concrete.KconfigChoices
import BuildLinux.RankedEquations
import BuildLinux.Concrete.KconfigSolution
import BuildLinux.Concrete.KconfigEquations
import BuildLinux.Concrete.KconfigGuarantees
import BuildLinux.QuotedLines
import BuildLinux.Concrete.KconfigFile
import BuildLinux.Concrete.KconfigReread
import BuildLinux.Concrete.KconfigWriting
import BuildLinux.Concrete.KconfigSettings
import BuildLinux.Concrete.KconfigSaved
import BuildLinux.Concrete.KconfigRestored
import BuildLinux.Concrete.KconfigSetValue
