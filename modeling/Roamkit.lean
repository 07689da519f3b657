import Roamkit.Proof.AccountAdmin
import Roamkit.Proof.ActivatedAt
import Roamkit.Proof.Allocation
import Roamkit.Proof.Amounts
import Roamkit.Proof.AppliedPackages
import Roamkit.Proof.AutoTopupCooldown
import Roamkit.Proof.Batch
import Roamkit.Proof.Contexts
import Roamkit.Proof.Disable
import Roamkit.Proof.FrozenRows
import Roamkit.Proof.Inventory
import Roamkit.Proof.InviteVisits
import Roamkit.Proof.Invites
import Roamkit.Proof.Money
import Roamkit.Proof.PdfBytes
import Roamkit.Proof.PendingInvites
import Roamkit.Proof.ProfileVersions
import Roamkit.Proof.Rebuild
import Roamkit.Proof.Reconcile
import Roamkit.Proof.RenewalProgress
import Roamkit.Proof.Reports
import Roamkit.Proof.ReservedKeys
import Roamkit.Proof.Sequences
import Roamkit.Proof.SignupMails
import Roamkit.Proof.SignupPasswords
import Roamkit.Proof.Snapshot
import Roamkit.Proof.SoldCoverage
import Roamkit.Proof.Timeline
import Roamkit.Proof.Transfers
import Roamkit.Proof.TypedBack
import Roamkit.Proof.UemSerial
