import Mathlib.Data.List.TakeWhile
import VoiceApp.Server.Event

/-! # Connecting to the servers

An address is an IPv4 or IPv6 literal with its port, or a name to be looked up. The UDP socket
is bound to an IPv4 address, so a client connects to servers that have one.
-/
namespace VoiceApp.Sdk
open Server (SocketAddr)

/-! ## Socket addresses as texts -/

/-- `str::split_once` -/
def splitOnce (c : Char) (s : List Char) : Option (List Char × List Char) :=
  match s.dropWhile (· ≠ c) with
  | [] => none
  | _ :: rest => some (s.takeWhile (· ≠ c),rest)

/-- `str::rsplit_once` -/
def rsplitOnce (c : Char) (s : List Char) : Option (List Char × List Char) :=
  (splitOnce c s.reverse).map fun (last,front) => (front.reverse,last.reverse)

/-- A decimal number below the bound. -/
def readNumber (bound : ℕ) (digits : List Char) : Option ℕ :=
  if digits ≠ [] ∧ digits.all Char.isDigit then
    let n := digits.foldl (fun n d => 10 * n + (d.toNat - '0'.toNat)) 0
    if n < bound then some n else none
  else none

/-- `read_port` -/
def readPort (digits : List Char) : Option UInt16 := (readNumber 65536 digits).map UInt16.ofNat

/-- No octet begins with a zero but zero itself. -/
def readOctet (digits : List Char) : Option ℕ :=
  if digits.length ≤ 3 ∧ (digits.head? = some '0' → digits.length = 1) then readNumber 256 digits else none

def readIpv4 (ip : List Char) : Option UInt32 :=
  match ip.splitOn '.' with
  | [a,b,c,d] => do
    let a ← readOctet a
    let b ← readOctet b
    let c ← readOctet c
    let d ← readOctet d
    return UInt32.ofNat (((a * 256 + b) * 256 + c) * 256 + d)
  | _ => none

/-- `SocketAddrV4::from_str` -/
def parseV4 (s : List Char) : Option SocketAddr := do
  let (ip,port) ← splitOnce ':' s
  return .v4 (← readIpv4 ip) (← readPort port)

/-- `u16::from_str`, which also takes a plus sign. -/
def parsePort : List Char → Option UInt16
  | '+' :: digits => readPort digits
  | digits => readPort digits

/-! ## One attempt -/

/-- What an attempt to connect finds: the syntax of IPv6 literals with their scope, the
resolver, the network, and the answers of the servers. -/
structure Attempt where
  parseV6 : List Char → Option (BitVec 128 × UInt16 × UInt32)
  lookupHost : String → UInt16 → Except String (List SocketAddr)
  tcpTimedOut : Bool
  tcpConnect : SocketAddr → Except String Unit
  udpBind : Except String Unit
  udpConnect : SocketAddr → Except String Unit
  authenticateManagement : String → Except String (UInt64 × UInt64)
  authenticateVoice : UInt64 → Except String Unit

/-- `SdkError::ConnectionFailed` as a text. -/
def connectionFailed (message : String) : String := "connection failed: " ++ message

/-- The addresses are tried one after the other until one can be connected to. -/
def connectFirst (connect : SocketAddr → Except String Unit) (addrs : List SocketAddr) : Except String Unit :=
  addrs.foldl (fun before addr =>
    match before with
    | .ok () => .ok ()
    | .error _ => connect addr) (.error "could not resolve to any address")

namespace Attempt

def toSocketAddrs (attempt : Attempt) (addr : String) : Except String (List SocketAddr) :=
  match parseV4 addr.toList with
  | some socketAddr => .ok [socketAddr]
  | none =>
    match attempt.parseV6 addr.toList with
    | some (ip,port,scopeId) => .ok [.v6 ip port 0 scopeId]
    | none =>
      match rsplitOnce ':' addr.toList with
      | none => .error "invalid socket address"
      | some (host,port) =>
        match parsePort port with
        | none => .error "invalid port value"
        | some port => attempt.lookupHost (String.ofList host) port

/-- `TcpClient::connect` -/
def connectTcp (attempt : Attempt) (addr : String) : Except String Unit :=
  if attempt.tcpTimedOut then .error (connectionFailed "Operation timed out")
  else ((attempt.toSocketAddrs addr).bind (connectFirst attempt.tcpConnect)).mapError connectionFailed

/-- `UdpClient::connect` -/
def connectUdp (attempt : Attempt) (addr : String) : Except String Unit := do
  attempt.udpBind.mapError fun e => connectionFailed ("UDP bind failed: " ++ e)
  ((attempt.toSocketAddrs addr).bind (connectFirst attempt.udpConnect)).mapError fun e =>
    connectionFailed ("UDP connect failed: " ++ e)

/-- `Client::connect` -/
def connect (attempt : Attempt) (managementServerAddr voiceServerAddr username : String) :
    Except String UInt64 := do
  attempt.connectTcp managementServerAddr
  attempt.connectUdp voiceServerAddr
  let (userId,voiceToken) ← attempt.authenticateManagement username
  attempt.authenticateVoice voiceToken
  return userId

/-- What is documented of resolvers and of sockets: a text with a colon is no host name, it is
taken for an IPv6 address, and a socket bound to an IPv4 address connects to no IPv6 address. -/
structure Documented (attempt : Attempt) : Prop where
  names : ∀ (host : String) (port : UInt16) (addrs : List SocketAddr), ':' ∈ host.toList →
    attempt.lookupHost host port = .ok addrs → ∀ ip port, .v4 ip port ∉ addrs
  family : ∀ ip port flowinfo scopeId, ∃ e, attempt.udpConnect (.v6 ip port flowinfo scopeId) = .error e

end Attempt

/-! ## Addresses with a colon -/

theorem splitOnce_append {c : Char} {front : List Char} (h : c ∉ front) (rest : List Char) :
    splitOnce c (front ++ c :: rest) = some (front,rest) := by
  have hfront : ∀ d ∈ front, decide (d ≠ c) = true := by
    intro d hd
    simp only [decide_eq_true_eq]
    rintro rfl
    exact h hd
  rw [splitOnce,List.dropWhile_append_of_pos hfront,List.takeWhile_append_of_pos hfront]
  simp

theorem rsplitOnce_append {c : Char} {last : List Char} (h : c ∉ last) (front : List Char) :
    rsplitOnce c (front ++ c :: last) = some (front,last) := by
  have hreverse : (front ++ c :: last).reverse = last.reverse ++ c :: front.reverse := by simp
  rw [rsplitOnce,hreverse,splitOnce_append (by rwa [List.mem_reverse])]
  simp

theorem readNumber_digits {bound n : ℕ} {digits : List Char} (h : readNumber bound digits = some n) :
    ∀ d ∈ digits, d.isDigit = true := by
  unfold readNumber at h
  split at h
  case isTrue hdigits => exact List.all_eq_true.mp hdigits.2
  case isFalse => cases h

theorem splitOnce_eq {c : Char} {s front rest : List Char} (h : splitOnce c s = some (front,rest)) :
    s = front ++ c :: rest ∧ c ∉ front := by
  unfold splitOnce at h
  split at h
  case h_1 => cases h
  case h_2 d rest' hdrop =>
    cases h
    have hc : d = c := by
      have hfirst : (s.dropWhile (· ≠ c)).head? = some d := by rw [hdrop]; rfl
      have hnot := List.head?_dropWhile_not (fun d => decide (d ≠ c)) s
      rw [hfirst] at hnot
      simpa using hnot
    subst hc
    refine ⟨?_,fun hmem => ?_⟩
    · rw [← hdrop]
      exact List.takeWhile_append_dropWhile.symm
    · have hne := List.mem_takeWhile_imp hmem
      simp at hne

/-- An IPv4 address has one colon, in front of the port. -/
theorem parseV4_count {s : List Char} {addr : SocketAddr} (h : parseV4 s = some addr) : s.count ':' = 1 := by
  unfold parseV4 at h
  obtain ⟨⟨ip,port⟩,hsplit,hread⟩ := Option.bind_eq_some_iff.mp h
  obtain ⟨rfl,hip⟩ := splitOnce_eq hsplit
  obtain ⟨_,_,hread⟩ := Option.bind_eq_some_iff.mp hread
  obtain ⟨_,hport,_⟩ := Option.bind_eq_some_iff.mp hread
  obtain ⟨n,hn,_⟩ := Option.map_eq_some_iff.mp hport
  have hport : ':' ∉ port := fun hmem => absurd (readNumber_digits hn ':' hmem) (by decide)
  rw [List.count_append,List.count_cons_self,List.count_eq_zero.mpr hip,List.count_eq_zero.mpr hport]

namespace Attempt
variable {attempt : Attempt}

theorem connectFirst_ok {connect : SocketAddr → Except String Unit} {addrs : List SocketAddr}
    (h : connectFirst connect addrs = .ok ()) : ∃ addr ∈ addrs, connect addr = .ok () := by
  unfold connectFirst at h
  induction addrs using List.reverseRecOn with
  | nil => cases h
  | append_singleton addrs addr ih =>
    rw [List.foldl_append,List.foldl_cons,List.foldl_nil] at h
    split at h
    case h_1 hbefore =>
      obtain ⟨before,hmem,hconnect⟩ := ih hbefore
      exact ⟨before,List.mem_append_left _ hmem,hconnect⟩
    case h_2 => exact ⟨addr,List.mem_append_right _ List.mem_cons_self,h⟩

/-- Behind an address with a colon of its own there is no IPv4 address. -/
theorem toSocketAddrs_colon (h : attempt.Documented) {address : String} {port : List Char}
    (hcolon : ':' ∈ address.toList) (hport : ':' ∉ port) {addrs : List SocketAddr}
    (haddrs : attempt.toSocketAddrs (address ++ String.ofList (':' :: port)) = .ok addrs) (ip : UInt32)
    (p : UInt16) : .v4 ip p ∉ addrs := by
  have hlist : (address ++ String.ofList (':' :: port)).toList = address.toList ++ ':' :: port := by
    rw [String.toList_append,String.toList_ofList]
  have hv4 : parseV4 (address.toList ++ ':' :: port) = none := by
    rw [Option.eq_none_iff_forall_ne_some]
    intro addr haddr
    have hcount := parseV4_count haddr
    rw [List.count_append,List.count_cons_self,List.count_eq_zero.mpr hport] at hcount
    have hpos := List.count_pos_iff.mpr hcolon
    omega
  unfold toSocketAddrs at haddrs
  rw [hlist,hv4,rsplitOnce_append hport] at haddrs
  dsimp only at haddrs
  split at haddrs
  case h_1 =>
    cases haddrs
    simp
  case h_2 =>
    split at haddrs
    case h_1 => cases haddrs
    case h_2 =>
      rw [String.ofList_toList] at haddrs
      exact h.names address _ addrs hcolon haddrs ip p

/-- The UDP socket is connected to an IPv4 address. -/
theorem connectUdp_ok (h : attempt.Documented) {addr : String} (hconnect : attempt.connectUdp addr = .ok ()) :
    ∃ addrs ip port, attempt.toSocketAddrs addr = .ok addrs ∧ .v4 ip port ∈ addrs := by
  unfold connectUdp at hconnect
  cases hbind : attempt.udpBind with
  | error e =>
    rw [hbind] at hconnect
    cases hconnect
  | ok =>
    rw [hbind] at hconnect
    change Except.mapError _ _ = _ at hconnect
    cases haddrs : attempt.toSocketAddrs addr with
    | error e =>
      rw [haddrs] at hconnect
      cases hconnect
    | ok addrs =>
      rw [haddrs] at hconnect
      change Except.mapError _ (connectFirst attempt.udpConnect addrs) = _ at hconnect
      cases hfirst : connectFirst attempt.udpConnect addrs with
      | error e =>
        rw [hfirst] at hconnect
        cases hconnect
      | ok =>
        obtain ⟨socketAddr,hmem,hok⟩ := connectFirst_ok hfirst
        cases socketAddr with
        | v4 ip port => exact ⟨addrs,ip,port,rfl,hmem⟩
        | v6 ip port flowinfo scopeId =>
          obtain ⟨e,he⟩ := h.family ip port flowinfo scopeId
          cases he.symm.trans hok

/-- Who is connected has connected the UDP socket. -/
theorem connect_udp {managementServerAddr voiceServerAddr username : String} {userId : UInt64}
    (hconnect : attempt.connect managementServerAddr voiceServerAddr username = .ok userId) :
    attempt.connectUdp voiceServerAddr = .ok () := by
  unfold connect at hconnect
  cases htcp : attempt.connectTcp managementServerAddr with
  | error e =>
    rw [htcp] at hconnect
    cases hconnect
  | ok =>
    cases hudp : attempt.connectUdp voiceServerAddr with
    | error e =>
      rw [htcp,hudp] at hconnect
      cases hconnect
    | ok => rfl

/-- Who is connected has entered an address without a colon. -/
theorem connect_host (h : attempt.Documented) {address username : String} {userId : UInt64}
    (hconnect : attempt.connect (address ++ ":9001") (address ++ ":9002") username = .ok userId) :
    ':' ∉ address.toList := by
  intro hcolon
  obtain ⟨addrs,ip,port,haddrs,hmem⟩ := connectUdp_ok h (connect_udp hconnect)
  exact toSocketAddrs_colon h hcolon (show ':' ∉ ['9','0','0','2'] by decide) haddrs ip port hmem

/-! ## One server -/

/-- The name `host` is that of a server which takes everybody for user 1. -/
def oneServer : Attempt where
  parseV6 _ := none
  lookupHost host port :=
    if host = "host" then .ok [.v4 2130706433 port] else .error "Name or service not known"
  tcpTimedOut := false
  tcpConnect _ := .ok ()
  udpBind := .ok ()
  udpConnect
    | .v4 _ _ => .ok ()
    | .v6 _ _ _ _ => .error "Address family not supported by protocol (os error 97)"
  authenticateManagement _ := .ok (1,11)
  authenticateVoice _ := .ok ()

theorem oneServer_documented : oneServer.Documented := by
  refine ⟨fun host port addrs hcolon haddrs => ?_,fun _ _ _ _ => ⟨_,rfl⟩⟩
  have hother : host ≠ "host" := by
    rintro rfl
    exact absurd hcolon (by decide)
  have herror : oneServer.lookupHost host port = .error "Name or service not known" := if_neg hother
  cases herror.symm.trans haddrs

theorem oneServer_connect : oneServer.connect "host:9001" "host:9002" "ann" = .ok 1 := by
  decide

end Attempt
end VoiceApp.Sdk
