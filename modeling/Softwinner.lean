import Softwinner.SecureStorage.Flash
import Softwinner.Framework.Crc32
import Softwinner.SecureStorage.Object
import Softwinner.SecureStorage.Redundancy
import Softwinner.SecureStorage.Map
import Softwinner.SecureStorage.Session
import Softwinner.SecureStorage.Isolation
import Softwinner.SecureStorage.PrivateStore
import Softwinner.SecureStorage.Listing
import Softwinner.SecureStorage.Api
import Softwinner.SecureStorage.Agreement
import Softwinner.Framework.Mutex
import Softwinner.Audio.AfLifetime
import Softwinner.Audio.CallRecord
import Softwinner.Audio.InputStream
import Softwinner.Audio.Locks
import Softwinner.Audio.VoiceThreads
import Softwinner.Camera.Device
import Softwinner.Camera.Parameters
import Softwinner.Camera.Pictures
import Softwinner.Camera.Settings
import Softwinner.Camera.Wakeup
import Softwinner.SecureStorage.Concurrency
import Softwinner.Audio.Capture
import Softwinner.Camera.SetParameters
import Softwinner.Camera.Accesses
import Softwinner.SecureStorage.Atomicity
import Softwinner.SecureStorage.Bounds
import Softwinner.SecureStorage.Determinism
import Softwinner.SecureStorage.Malformed
import Softwinner.SecureStorage.Names
import Softwinner.SecureStorage.PrivateFrame
import Softwinner.Sensors.Detect
import Softwinner.Sensors.Poll
import Softwinner.Sensors.InputReader
import Softwinner.Sensors.ReadEvents
import Softwinner.Sensors.PollEvents
import Softwinner.Sensors.Activate
import Softwinner.Audio.CaptureOrder
import Softwinner.Audio.Cards
import Softwinner.Audio.DeviceSelection
import Softwinner.Audio.DeviceLists
import Softwinner.Audio.DeviceNames
import Softwinner.Audio.VolumeConfig
import Softwinner.Audio.RecordSession
import Softwinner.Audio.RecordThread
import Softwinner.Audio.StreamLifecycle
import Softwinner.Framework.Blit
import Softwinner.Camera.Frame
import Softwinner.Camera.PreviewCopy
import Softwinner.Camera.DownScale
import Softwinner.Camera.PreviewCallback
import Softwinner.Camera.Zoom
import Softwinner.Camera.FrameLayout
import Softwinner.Camera.FocusArea
import Softwinner.Camera.FocusFilter
import Softwinner.Camera.CameraConfig
import Softwinner.Camera.PictureSaving
import Softwinner.Camera.PictureFds
import Softwinner.Camera.QueueRuns
import Softwinner.Framework.Wire
import Softwinner.Bluetooth.ConfigFile
import Softwinner.Bluetooth.PatchFile
import Softwinner.Bluetooth.Baud
import Softwinner.Bluetooth.HwConfig
import Softwinner.Bluetooth.Transfer
import Softwinner.Bluetooth.Download
import Softwinner.Bluetooth.Prologue
import Softwinner.Bluetooth.Delivery
import Softwinner.Bluetooth.Echo
import Softwinner.Bluetooth.Complete
import Softwinner.Bluetooth.StepCases
import Softwinner.Bluetooth.Session
import Softwinner.Bluetooth.Buffers
import Softwinner.Framework.Table
import Softwinner.Camera.Connection
import Softwinner.Camera.Mappings
import Softwinner.Camera.Preview
import Softwinner.Camera.PreviewRuns
import Softwinner.Camera.PreviewReturns
import Softwinner.Audio.EchoReference
import Softwinner.Audio.EchoRuns
import Softwinner.Audio.PcmMmap
import Softwinner.Framework.Slots
import Softwinner.Camera.Scaler
import Softwinner.Camera.ScalerPictures
import Softwinner.Camera.AutoFocus
