import Bookswap.Domain
import Bookswap.Lib.OrderedMap
import Bookswap.Lib.Rearranged
import Bookswap.Lib.Rounding

/-!
# funnel-report.ts

The report over the product events of a cohort. Percentages and the quotient of the temporary
metrics are computed with doubles from two counts and stay parameters; the medians are of whole
milliseconds and exact.
-/

namespace Bookswap

/-- `PRODUCT_EVENT_TYPE` -/
inductive ProductEventType
  | signupCompleted | bookAdded | friendAccepted | loanRequested | loanApproved | loanHandedOver
  | loanReturned | inviteSent | inviteAccepted | friendInventoryUsable | discoverySearched
  | friendBookFound | workHoldersFound | loanRecorded | loanRecordConfirmed | loanRecordDeclined
  | loanRecordWithdrawn
  deriving DecidableEq, Repr

structure FunnelEvent where
  type : ProductEventType
  subjectUserId : Option UserId
  occurredAt : Int
  deriving DecidableEq, Repr

structure IdentifiedSignup where
  subjectUserId : UserId
  occurredAt : Int
  deriving DecidableEq, Repr

structure MemberActivity where
  signup : IdentifiedSignup
  events : List FunnelEvent
  deriving DecidableEq, Repr

variable (doubles : FunnelDoubles)

def MemberActivity.has (member : MemberActivity) (types : List ProductEventType) : Bool :=
  member.events.any fun event => types.contains event.type

end Bookswap
