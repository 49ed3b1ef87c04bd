import TupleNet.Zoo.Entity

/-! # Flows as data

The tables of `flow_common.py`, and matches and actions as the lists of tuples that `match.py` and
`action.py` build.  Addresses in matches are kept as OVS keeps them: an IPv4 address is its number
without the host bits, an Ethernet address is its number.  Two flows of one table and priority are
the same flow to `ovs-ofctl` when these lists are equal. -/

namespace TupleNet

/-! ### Tables -/

def TABLE_CONVERT_PHY_LOGICAL : ℕ := 0
def TABLE_LSP_TRACE_INGRESS_IN : ℕ := 1
def TABLE_LSP_INGRESS_PROCESS_EXT_LOGIC : ℕ := 2
def TABLE_LSP_INGRESS_ARP_CONTROLLER : ℕ := 3
def TABLE_LSP_INGRESS_ARP_RESPONSE : ℕ := 4
def TABLE_LSP_INGRESS_UNTUNNEL : ℕ := 5
def TABLE_LSP_INGRESS_LOOKUP_DST_PORT : ℕ := 6
def TABLE_LSP_INGRESS_OUTPUT_DST_PORT : ℕ := 7
def TABLE_LSP_TRACE_INGRESS_OUT : ℕ := 7

def TABLE_LSP_TRACE_EGRESS_IN : ℕ := 20
def TABLE_LSP_EGRESS_JUDGE_LOOPBACK : ℕ := 21
def TABLE_LSP_EGRESS_FORWARD_PACKET : ℕ := 22
def TABLE_LSP_EGRESS_PUSHOUT : ℕ := 23
def TABLE_LSP_TRACE_EGRESS_OUT : ℕ := 23

def TABLE_LSP_INGRESS_FIRST : ℕ := TABLE_LSP_TRACE_INGRESS_IN
def TABLE_LSP_EGRESS_FIRST : ℕ := TABLE_LSP_TRACE_EGRESS_IN

def TABLE_LRP_TRACE_INGRESS_IN : ℕ := 30
def TABLE_LRP_INGRESS_PKT_RESPONSE : ℕ := 31
def TABLE_LRP_INGRESS_DROP_UNEXPECT : ℕ := 32
def TABLE_LRP_INGRESS_UNSNAT_STAGE1 : ℕ := 33
def TABLE_LRP_INGRESS_UNSNAT_STAGE2 : ℕ := 34
def TABLE_LRP_INGRESS_DNAT_STAGE1 : ℕ := 35
def TABLE_LRP_INGRESS_DNAT_STAGE2 : ℕ := 36
def TABLE_LRP_INGRESS_IP_ROUTE : ℕ := 37
def TABLE_LRP_INGRESS_ECMP : ℕ := 38
def TABLE_LRP_TRACE_INGRESS_OUT : ℕ := 39

def TABLE_LRP_TRACE_EGRESS_IN : ℕ := 50
def TABLE_LRP_EGRESS_UNDNAT_STAGE1 : ℕ := 51
def TABLE_LRP_EGRESS_UNDNAT_STAGE2 : ℕ := 52
def TABLE_LRP_EGRESS_SNAT_STAGE1 : ℕ := 53
def TABLE_LRP_EGRESS_SNAT_STAGE2 : ℕ := 54
def TABLE_LRP_EGRESS_UPDATE_ETH_DST : ℕ := 55
def TABLE_LRP_EGRESS_HANDLE_UNK_PKT : ℕ := 56
def TABLE_LRP_EGRESS_FORWARD_PACKET : ℕ := 57
def TABLE_LRP_TRACE_EGRESS_OUT : ℕ := 58

def TABLE_LRP_EGRESS_FIRST : ℕ := TABLE_LRP_TRACE_EGRESS_IN

def TABLE_OUTPUT_PKT : ℕ := 94
def TABLE_REDIRECT_CHASSIS : ℕ := 95
def TABLE_ARP_FEEDBACK_CONSTRUCT : ℕ := 96
def TABLE_EMBED2_METADATA : ℕ := 97
def TABLE_EXTRACT_METADATA : ℕ := 98
def TABLE_PIPELINE_FORWARD : ℕ := 99
def TABLE_SEARCH_IP_MAC : ℕ := 100
def TABLE_DROP_PACKET : ℕ := 101

def TABLE_THIRD_PARTY : ℕ := 201

/-- `TP_OFPORT_NONE`. -/
def TP_OFPORT_NONE : ℤ := 0xffff

/-! ### Matches -/

/-- The bits of `REG_FLAG` by their index: loopback, trace, redirect, NAT. -/
inductive Flag where
  | LOOPBACK
  | TRACE
  | REDIRECT
  | NAT
deriving DecidableEq, Repr

/-- The expressions of `match.py`, under their names. -/
inductive MatchExp where
  | matchNone
  | datapath (id : String)
  | inPort (ofport : ℤ)
  | reg2 (n : ℕ)
  | reg5 (n : ℕ)
  | regDst (n : ℕ)
  | regOutport (ofport : ℤ)
  | regFlag (flag : Flag)
  | ipProto
  | ipDst (addr prefixLen : ℕ)
  | ipSrc (addr : ℕ) (prefixLen : ℤ)
  | ipTtl (n : ℕ)
  | ethDst (mac : ℕ)
  | arpProto
  | arpTpa (addr : ℕ)
  | arpOp (n : ℕ)
  | icmpProto
  | icmpType (n : ℕ)
  | icmpCode (n : ℕ)
deriving DecidableEq, Repr

/-- A match, as a list of expressions. -/
abbrev Match := List MatchExp

/-- `ip_dst_prefix`. -/
def MatchExp.ipDstPrefix (ipInt prefixLen : ℕ) : MatchExp :=
    .ipDst (maskIp ipInt prefixLen) prefixLen

/-- `ip_src_prefix`; the prefix of a NAT rule is not clamped. -/
def MatchExp.ipSrcPrefix (ipInt : ℕ) (prefixLen : ℤ) : MatchExp :=
  .ipSrc (maskIp ipInt (clampPrefix prefixLen)) prefixLen

/-! ### Actions -/

/-- The registers and header fields that actions name. -/
inductive Field where
  | regSrc
  | regDst
  | reg2
  | reg3
  | regOutport
  | reg5
  | reg6
  | reg7
  | regFlag
  | regDp
  | ethSrc
  | ethDst
  | ipSrc
  | ipDst
  | ipTtl
  | icmpType
  | arpOp
  | arpSpa
  | arpTpa
  | arpSha
  | arpTha
  | inPort
  | tunId
  | tunMetadata0
deriving DecidableEq, Repr

/-- `NXM_Reg`: a field or some of its bits. -/
structure NXMReg where
  field : Field
  bits : Option (ℕ × ℕ)
deriving DecidableEq, Repr

/-- A whole field. -/
def NXMReg.all (f : Field) : NXMReg := ⟨f, none⟩

/-- The bits `start..stop` of a field. -/
def NXMReg.range (f : Field) (start stop : ℕ) : NXMReg := ⟨f, some (start, stop)⟩

/-- What is loaded: a number, or the text of an id. -/
inductive LoadValue where
  | num (n : ℤ)
  | text (s : String)
deriving DecidableEq, Repr

/-- The expressions of `action.py`, under their names. -/
inductive ActionExp where
  | output (ofport : ℤ)
  | outputReg (f : Field)
  | drop
  | modDlSrc (mac : ℕ)
  | modDlDst (mac : ℕ)
  | modNwSrc (addr : ℕ)
  | modNwDst (addr : ℕ)
  | decTtl
  | resubmitTable (table : ℕ)
  | resubmitNext
  | move (source dest : NXMReg)
  | load (value : LoadValue) (dest : NXMReg)
  | loadFlag (flag : Flag)
  | push (f : Field)
  | exchange (f g : Field)
  | bundleLoad (dest : Field) (slaves : List ℤ)
  | note (name : String)
  | uploadArp
  | uploadTrace
  | uploadUnknowDst
  | generateArp (table : ℕ)
  | snat (addr : ℕ) (table : ℕ)
  | unsnat (table : ℕ)
  | dnat (addr : ℕ) (table : ℕ)
  | undnat (table : ℕ)
deriving DecidableEq, Repr

/-- A list of actions. -/
abbrev Action := List ActionExp

/-- `load` of a number into a whole field. -/
def ActionExp.loadNum (n : ℤ) (f : Field) : ActionExp := .load (.num n) (.all f)

/-- `load` of the id of a datapath into a whole field. -/
def ActionExp.loadId (s : String) (f : Field) : ActionExp := .load (.text s) (.all f)

end TupleNet
