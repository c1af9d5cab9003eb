import LinuxModules.Lib.Slots
import LinuxModules.Lib.Run
import LinuxModules.Netlink.UserTab
import LinuxModules.Lib.Bytes
import LinuxModules.Net.Nlmsg
import LinuxModules.Net.NlmsgBatch
import LinuxModules.Netlink.ReceiveMsg
import LinuxModules.Netlink.TableRuns
import LinuxModules.Netlink.ReceiveSkb
import LinuxModules.Net.SkBuff
import LinuxModules.Netlink.Capture
import LinuxModules.Lib.CString
import LinuxModules.Netlink.UserClient
import LinuxModules.Netlink.System
import LinuxModules.Netctrl.Kernel
import LinuxModules.Netlink.Delivery
import LinuxModules.Netctrl.App
import LinuxModules.Netctrl.RoundTrip
import LinuxModules.ReceiveLoops
import LinuxModules.Netctrl.Dispatch
import LinuxModules.Netlink.Registration
import LinuxModules.Lib.Window
import LinuxModules.Netlink.DirectHook
import LinuxModules.Netlink.RateLimit
import LinuxModules.Lib.Total
import LinuxModules.Netlink.Freelist
import LinuxModules.Lib.Ledger
import LinuxModules.Netlink.Ownership
import LinuxModules.Netlink.Teardown
import LinuxModules.Netlink.Startup
import LinuxModules.Netctrl.Reads
import LinuxModules.Netlink.Fragments
import LinuxModules.Netlink.Kcapd
import LinuxModules.Netlink.Throughput
import LinuxModules.Lib.InetChecksum
import LinuxModules.Lib.Layout
import LinuxModules.Net.RawSkb
import LinuxModules.Nic.Device
import LinuxModules.Nic.Headers
import LinuxModules.Nic.Senders
import LinuxModules.Nic.Wire
import LinuxModules.Lib.Tiles
import LinuxModules.Nic.Garp
import LinuxModules.Nic.Resources
import LinuxModules.Kprobe.Init
import LinuxModules.Proc.Foobar
import LinuxModules.Mon.Lover
import LinuxModules.Lib.Progress
import LinuxModules.Lib.WaitEvent
import LinuxModules.Netlink.Wakeup
import LinuxModules.Funcexectime.Kretprobe
import LinuxModules.Kthread.Sema
import LinuxModules.Lib.Deferred
import LinuxModules.Timer.Unload
import LinuxModules.Workqueue.MyWork
import LinuxModules.Netlink.Loopback
import LinuxModules.Netlink.Session
import LinuxModules.Netlink.Recipients
import LinuxModules.Netctrl.Commands
import LinuxModules.Usersock
import LinuxModules.DeviceModules
import LinuxModules.Mon.Ioctl
import LinuxModules.Notifierchain.Modules
