import SpotQueue.PushRetries
import Mathlib.Data.ENat.Lattice

namespace SpotQueue.PushSpec

open SpotQueue.Entity SpotQueue.PushService SpotQueue.PushRetries SpotQueue.Awaits.AsyncProgram

variable {config : FirebaseConfig} {payload : PushNotificationPayload} {message : Message}
  {outcomes : Outcomes} {after : PushNotificationResult} {fuel attempt n c : Nat}

end SpotQueue.PushSpec
