import Mathlib.Data.String.Basic

/-!
# The registry of domain event names
-/

namespace Hotelia.Events

/-- The values of `EVENT_TYPES`, in order. -/
def eventTypes : List String :=
  ["reservation.created", "reservation.confirmed", "reservation.checked_in",
    "reservation.checked_out", "reservation.cancelled",
    "room.status_changed", "room.key_generated",
    "folio.balance_updated",
    "order.placed", "order.confirmed", "order.preparing", "order.ready", "order.delivered",
    "order.completed",
    "payment.authorized", "payment.captured", "payment.refunded",
    "work_order.created", "work_order.assigned", "work_order.completed",
    "daily_rate.changed",
    "guest.message_received"]

/-- `eventRegistry.isValid`. -/
def isValid (type : String) : Bool := eventTypes.contains type

end Hotelia.Events
