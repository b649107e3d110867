import Runc.Seccomp.EnosysWrap
import Runc.Nsexec.Handshake
import Runc.Init.SyncSafety
import Runc.Scanner.FailedScan
import Runc.Libcontainer.Destroy
import Runc.Libcontainer.Freezer
import Runc.Scanner.CapTraceRuns
import Runc.Scanner.FinalizeHalf
import Runc.Bootstrap.EmptyPaths
import Runc.Configs.SysctlPaths
import Runc.Userns.Mappings
import Runc.Userns.IdmapData
import Runc.Update.Sequences
import Runc.Update.Rollback
import Runc.UtilsLinux.CleanUp
import Runc.ExecFifo.Once
import Runc.Signals.Forward
import Runc.Rootfs.MoveRoot
import Runc.Rootfs.MountFlags
import Runc.Exec.Placement
import Runc.Libcontainer.SaveSafety
import Runc.Libcontainer.CreateSafety
import Runc.SyncSocket.Framing
import Runc.Specconv.Rootless
import Runc.Specconv.SystemdProps
import Runc.Nsexec.MappingTool
import Runc.Nsexec.JoinNamespaces
import Runc.Seccomp.LastSyscalls
import Runc.Seccomp.Actions
import Runc.Scanner.PathRules
import Runc.Scanner.FlipFlags
import Runc.Scanner.AuditWindow
import Runc.System.ProcStat
import Runc.Configs.CPUSet
import Runc.Libcontainer.PrepareEnv
import Runc.Specconv.HostID
import Runc.Update.Devices
import Runc.Configs.NetDevices
import Runc.Notify.Socket
import Runc.Exec.Ids
import Runc.Criu.Swrk
import Runc.Userns.Handles
import Runc.Libcontainer.ContainerID
import Runc.Pathrs.MkdirAll
import Runc.Logs.Forward
import Runc.Nsexec.CpuAffinity
import Runc.Rootfs.ParentMount
