import UBus.Runtime.ControlStream
import UBus.Runtime.Subscription
import UBus.FrameRoundTrip
import UBus.Segmentation
import UBus.CompleteFrames
import UBus.Json.Truncation
import UBus.Json.Vendored
import UBus.Master.Queues
import UBus.Master.NameService
import UBus.Master.Replies
import UBus.Master.Polling
import UBus.Master.Detection
import UBus.Master.Atomicity
import UBus.Master.Locks
import UBus.Master.Races
import UBus.Network.TypeSafety
import UBus.Network.Announcements
import UBus.Network.Delivery
import UBus.Network.Duplicates
import UBus.Method.Correctness
import UBus.Runtime.Events
import UBus.Runtime.Calls
import UBus.Readiness
import UBus.Runtime.Listener
import UBus.TableBounds
import UBus.Runtime.Joining
import UBus.Debugger
import UBus.Listings
import UBus.Wired
