import Appliance.Entries

/-! Network interfaces: where the address comes from, and one port list a protocol. A settled port
list is sorted by the bytes of its spellings, holds every port once and no mark. Excluding a port
closes it for the protocol and for those that are carried by it; the reverse does not hold. -/
namespace Appliance

inductive Protocol where
  | udp | tcp | http | https
  deriving DecidableEq, Repr

namespace Protocol

def name : Protocol → String
  | udp => "udp"
  | tcp => "tcp"
  | http => "http"
  | https => "https"

/-- The protocols that are served over this one: closing a port here closes it there. -/
def carries : Protocol → List Protocol
  | tcp => [http, https]
  | _ => []

end Protocol

inductive Addressing where
  | disabled | dhcp | static
  deriving DecidableEq, Repr

structure Interface where
  ip : String := ""
  mask : String := ""
  gateway : String := ""
  udp : List Entry := []
  tcp : List Entry := []
  http : List Entry := []
  https : List Entry := []
  mtu : UInt32 := 0
  disableTso : Bool := false
  tcpdump : Bool := false
  deriving DecidableEq, Repr

namespace Interface

instance : Inhabited Interface := ⟨{}⟩

/-- An absent address and two spellings switch an interface off. -/
def addressing (nic : Interface) : Addressing :=
  if nic.ip = "" ∨ nic.ip = "!" ∨ nic.ip = "disabled" then .disabled
  else if nic.ip = "dhcp" then .dhcp
  else .static

def ports (nic : Interface) : Protocol → List Entry
  | .udp => nic.udp
  | .tcp => nic.tcp
  | .http => nic.http
  | .https => nic.https

def setPorts (nic : Interface) (protocol : Protocol) (entries : List Entry) : Interface :=
  match protocol with
  | .udp => { nic with udp := entries }
  | .tcp => { nic with tcp := entries }
  | .http => { nic with http := entries }
  | .https => { nic with https := entries }

@[simp] theorem ports_setPorts (nic : Interface) (p q : Protocol) (entries : List Entry) :
    (nic.setPorts p entries).ports q = if q = p then entries else nic.ports q := by
  cases p <;> cases q <;> rfl

/-- What the way of addressing leaves of the settings: an interface that is off keeps neither
addresses nor ports, one that asks for its address keeps no mask and no gateway. -/
def applyAddressing (nic : Interface) : Interface :=
  match nic.addressing with
  | .disabled =>
    { nic with ip := "", mask := "", gateway := "", udp := [], tcp := [], http := [], https := [] }
  | .dhcp => { nic with mask := "", gateway := "" }
  | .static => nic

end Interface

namespace Entries

/-- The values that a list excludes once its retractions are carried out. -/
def closed (ports : List Entry) : List String := (retract ports).filterMap (·.excluded?)

def opened (ports : List Entry) : List Entry :=
  (((exclude (retract ports)).filter (· ≠ .plain "")).mergeSort
    fun a b => a.spelling ≤ b.spelling).eraseDups

end Entries

namespace Interface

def closePorts (values : List String) (nic : Interface) (protocol : Protocol) : Interface :=
  nic.setPorts protocol ((nic.ports protocol).filter fun
    | .plain text => !values.contains text
    | _ => true)

def settleProtocol (nic : Interface) (protocol : Protocol) : Interface :=
  let ports := nic.ports protocol
  (protocol.carries.foldl (closePorts (Entries.closed ports)) nic).setPorts protocol
    (Entries.opened ports)

/-- Settles all port lists. What TCP excludes reaches the others while these still have marks. -/
def settlePorts (nic : Interface) : Interface :=
  [Protocol.tcp, .udp, .http, .https].foldl settleProtocol nic

def settle (nic : Interface) : Interface := nic.settlePorts.applyAddressing

def unmarked (nic : Interface) : Bool :=
  Entries.unmarked nic.udp && Entries.unmarked nic.tcp && Entries.unmarked nic.http &&
    Entries.unmarked nic.https

end Interface

end Appliance
