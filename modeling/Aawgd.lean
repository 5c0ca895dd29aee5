import Aawgd.GuardedSystem
import Aawgd.ForwardLoss
import Aawgd.ForwardStream
import Aawgd.Session
import Aawgd.SessionInvariant
import Aawgd.SessionWakeup
import Aawgd.SessionHandles
import Aawgd.Bluetooth
import Aawgd.ListCursor
import Aawgd.Uevent
import Aawgd.Usb
import Aawgd.Daemon
import Aawgd.DaemonPromises
import Aawgd.DaemonRetry
import Aawgd.DaemonGadgets
import Aawgd.DaemonCleanup
import Aawgd.DaemonSwitch
import Aawgd.AccessoryCalls
import Aawgd.AccessoryWait
import Aawgd.DaemonRetryTold
import Aawgd.DaemonAccessory
import Aawgd.Ledger
import Aawgd.SessionDescriptors
import Aawgd.Config
import Aawgd.Launcher
import Aawgd.LauncherRequest
import Aawgd.LauncherReading
import Aawgd.CString
import Aawgd.LauncherSending
import Aawgd.UeventParse
import Aawgd.UeventDispatch
import Aawgd.LineEdit
import Aawgd.NetworkManager
import Aawgd.RetryPolicy
import Aawgd.AdapterLifecycle
import Aawgd.AccessoryOpens
import Aawgd.MachineReader
import Aawgd.FieldReader
import Aawgd.ProxyPort
import Aawgd.ForwardStop
import Aawgd.SessionStop
import Aawgd.ButtonMonitor
import Aawgd.ButtonBursts
import Aawgd.ButtonClicks
import Aawgd.SessionTrace
import Aawgd.SessionEnd
import Aawgd.AccessoryRecovery
import Aawgd.UeventLoop
import Aawgd.LauncherMessages
import Aawgd.BluetoothBus
import Aawgd.BluetoothMethods
import Aawgd.RetryBus
import Aawgd.ButtonActions
import Aawgd.ButtonScript
import Aawgd.DaemonUnmonitored
import Aawgd.GadgetFiles
import Aawgd.DaemonProgress
import Aawgd.DaemonSessions
import Aawgd.LauncherSecrecy
