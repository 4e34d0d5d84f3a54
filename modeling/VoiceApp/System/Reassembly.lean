import VoiceApp.Management.Handler
import VoiceApp.Sdk.TcpClient

/-! # Reassembly of well-formed streams

Both receive loops are the same loop over the codec's framer with different ways of
handing a packet on. On a stream of encoded packets, however it is cut, they hand on the
packets whose last byte has arrived and keep the bytes of the next one.
-/
namespace VoiceApp.System
open Protocol Server Framing

/-- The server's loop over a list of reads, as long as it goes on. -/
def serverReads (address : SocketAddr) (packetBuffer : Bytes) : List Bytes →
    Management.HandlerM Management.Outcome
  | [] => return .proceed packetBuffer
  | bytes :: rest => do
    match ← Management.handleRead address packetBuffer (.ok bytes) with
    | .proceed packetBuffer => serverReads address packetBuffer rest
    | .exit e => return .exit e

/-- The server's loop hands on what feeding the reads one by one splits off. -/
theorem serverReads_feed {reads : List Bytes} (hne : ∀ bytes ∈ reads, bytes ≠ [])
    (address : SocketAddr) (packetBuffer : Bytes) (handed : List Packet) :
    (do
      forM handed (Management.deliver address)
      serverReads address packetBuffer reads) =
    (do
      forM (reads.foldl Packet.framer.feed (handed,packetBuffer)).1 (Management.deliver address)
      return .proceed (reads.foldl Packet.framer.feed (handed,packetBuffer)).2) := by
  induction reads generalizing packetBuffer handed with
  | nil => rfl
  | cons bytes rest ih =>
    have hbytes := hne bytes (by simp)
    have hread : Management.handleRead address packetBuffer (.ok bytes) = (do
        forM (Packet.framer.split (packetBuffer ++ bytes)).1 (Management.deliver address)
        return .proceed (Packet.framer.split (packetBuffer ++ bytes)).2) := by
      cases bytes with
      | nil => exact (hbytes rfl).elim
      | cons byte tail =>
        simp only [Management.handleRead,Management.drainPackets_eq,bind_assoc]
        rfl
    rw [List.foldl_cons,Framer.feed,← ih (fun b hb => hne b (List.mem_cons_of_mem bytes hb)),
      serverReads,hread,List.forM_append]
    simp only [bind_assoc,pure_bind]

/-- However a stream of encoded packets is cut into reads, and after each of them, both
loops have handed on exactly the packets that are complete and keep the rest. -/
theorem reassembly_exact {packets : List Packet} {ws reads : List Bytes}
    (h : Framer.Encoded Packet.encode packets ws) (hne : ∀ bytes ∈ reads, bytes ≠ [])
    (hreads : reads.flatten <+: ws.flatten) :
    ∃ k kept, Framer.Reached packets ws reads.flatten k kept ∧
      (reads.flatten = ws.flatten → k = packets.length ∧ kept = []) ∧
      (∀ address, serverReads address [] reads = (do
        forM (packets.take k) (Management.deliver address)
        return .proceed kept)) ∧
      ∀ c : Sdk.TcpClient.Handler, c.accumulator = [] →
        ∃ c', Sdk.TcpClient.handleReads c reads = .ok (true,c') ∧
          c'.packetTx = c.packetTx ++ packets.take k ∧ c'.accumulator = kept := by
  obtain ⟨k,kept,hsplit,hreached⟩ := Packet.framer_encodes.split_stream h hreads
  have hfeed := (Packet.framer_encodes.feedAll_eq h hreads).trans hsplit
  rw [Framer.feedAll] at hfeed
  refine ⟨k,kept,hreached,fun hall => ?_,fun address => ?_,fun c hacc => ?_⟩
  · rw [hall] at hreached
    exact hreached.complete h.length_eq
  · have hserver := serverReads_feed hne address [] []
    rw [hfeed] at hserver
    simpa using hserver
  · obtain ⟨c',hc',hpackets⟩ := Sdk.TcpClient.handleReads_feed hne c
    have hpre := Packet.framer.foldl_feed_append c.packetTx reads ([],[])
    rw [List.append_nil,← hacc,← hpackets,hacc,hfeed] at hpre
    exact ⟨c',hc',(Prod.mk.inj hpre).1,(Prod.mk.inj hpre).2⟩

/-- Two ping requests that arrive in three reads, the second of which has the end of the one and
the beginning of the other, and of the second request five bytes only. -/
theorem reassembly_exact_pings :
    serverReads (.v4 1 1) [] [[6,0,8,0],[0,0,0,0,0,0,7,6,0],[8,0,0]] = (do
        forM [Packet.pingRequest 7] (Management.deliver (.v4 1 1))
        return .proceed [6,0,8,0,0]) ∧
      ∃ c', Sdk.TcpClient.handleReads .new [[6,0,8,0],[0,0,0,0,0,0,7,6,0],[8,0,0]] = .ok (true,c') ∧
        c'.packetTx = [.pingRequest 7] ∧ c'.accumulator = [6,0,8,0,0] := by
  have henc : Framer.Encoded Packet.encode [.pingRequest 7,.pingRequest 8]
      [[6,0,8,0,0,0,0,0,0,0,7],[6,0,8,0,0,0,0,0,0,0,8]] := .cons (by decide) (.cons (by decide) .nil)
  have hreads : [[6,0,8,0],[0,0,0,0,0,0,7,6,0],[8,0,0]].flatten <+:
    ([[6,0,8,0,0,0,0,0,0,0,7],[6,0,8,0,0,0,0,0,0,0,8]] : List Bytes).flatten := ⟨[0,0,0,0,0,8],rfl⟩
  obtain ⟨k,kept,hreached,_,hserver,hclient⟩ := reassembly_exact henc (by simp) hreads
  have hone : k = 1 ∧ kept = [6,0,8,0,0] := by
    have hbytes := hreached.bytes
    have hle : k ≤ 2 := hreached.le
    obtain rfl | rfl | rfl : k = 0 ∨ k = 1 ∨ k = 2 := by omega
    · obtain rfl : kept = _ := hbytes
      exact absurd (hreached.cut _ rfl) (by decide)
    · exact ⟨rfl,List.append_cancel_left hbytes⟩
    · have hlen := congrArg List.length hbytes
      simp at hlen
  obtain ⟨rfl,rfl⟩ := hone
  exact ⟨hserver _,hclient .new rfl⟩

end VoiceApp.System
