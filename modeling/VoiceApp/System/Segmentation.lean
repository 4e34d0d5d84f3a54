import VoiceApp.System.Reassembly

/-! # Reassembly of arbitrary byte strings

Up to the first frame that the decoder rejects, neither loop depends on how the bytes are
cut into reads. On a rejected frame both clear their buffers on purpose, and what the read
has brought behind it is gone with it.
-/
namespace VoiceApp.System
open Protocol Server Framing

/-- Two cuttings with the same stretches are received alike. -/
theorem reads_same_stretches {reads₁ reads₂ : List Bytes} (hne₁ : ∀ bytes ∈ reads₁, bytes ≠ [])
    (hne₂ : ∀ bytes ∈ reads₂, bytes ≠ [])
    (h : Packet.framer.stretches reads₁ = Packet.framer.stretches reads₂) :
    (∀ address, serverReads address [] reads₁ = serverReads address [] reads₂) ∧
    ∀ c : Sdk.TcpClient.Handler, c.accumulator = [] →
      Sdk.TcpClient.handleReads c reads₁ = Sdk.TcpClient.handleReads c reads₂ := by
  have hfeed : reads₁.foldl Packet.framer.feed ([],[]) = reads₂.foldl Packet.framer.feed ([],[]) := by
    have h₁ := Packet.framer_stable.feedAll_stretches reads₁
    rw [h,← Packet.framer_stable.feedAll_stretches reads₂] at h₁
    exact h₁
  constructor
  · intro address
    have h₁ := serverReads_feed hne₁ address [] []
    have h₂ := serverReads_feed hne₂ address [] []
    rw [hfeed,← h₂] at h₁
    exact h₁
  · intro c hacc
    have h₁ := Sdk.TcpClient.handleReads_some hne₁ c [] []
    have h₂ := Sdk.TcpClient.handleReads_some hne₂ c [] []
    rw [hfeed,← h₂] at h₁
    rw [← hacc] at h₁
    exact h₁

/-- A rejected frame: the frames in front of it are handed on, and the reads behind the
one that shows it are received with an empty buffer. -/
theorem reads_rejected {reads : List Bytes} (hne : ∀ bytes ∈ reads, bytes ≠ [])
    (h : Packet.framer.rejects reads.flatten = true) :
    ∃ before bytes rest, reads = before ++ bytes :: rest ∧
      Packet.framer.rejects before.flatten = false ∧
      Packet.framer.rejects (before.flatten ++ bytes) = true ∧
      (∀ address, serverReads address [] reads = (do
        forM (Packet.framer.split reads.flatten).1 (Management.deliver address)
        serverReads address [] rest)) ∧
      ∀ c : Sdk.TcpClient.Handler, c.accumulator = [] →
        Sdk.TcpClient.handleReads c reads =
          Sdk.TcpClient.handleReads (c.handOn (Packet.framer.split reads.flatten).1) rest := by
  obtain ⟨before,bytes,rest,hreads,hclean,hshown,hfeed⟩ := Packet.framer_stable.feedAll_rejected h
  have hrest : ∀ b ∈ rest, b ≠ [] := fun b hb => hne b (by rw [hreads]; simp [hb])
  refine ⟨before,bytes,rest,hreads,hclean,hshown,fun address => ?_,fun c hacc => ?_⟩
  · have hall := serverReads_feed hne address [] []
    rw [hfeed [],List.nil_append,← serverReads_feed hrest address] at hall
    exact hall
  · have hall := Sdk.TcpClient.handleReads_some hne c [] []
    have hempty := Sdk.TcpClient.Handler.handOn_accumulator c (Packet.framer.split reads.flatten).1 []
    rw [hfeed [],List.nil_append,← Sdk.TcpClient.handleReads_some hrest c,← hempty,← hacc] at hall
    exact hall

/-- Two ways of cutting the same bytes, well-formed or not. If the decoder rejects none of
the frames, or the two cuttings clear the buffer at the same places, both loops do the same.
In any case they hand on the same packets up to the first rejected frame, and go on with
the reads behind the one that shows it as from an empty buffer. -/
theorem cutting_irrelevant {reads₁ reads₂ : List Bytes} (hne₁ : ∀ bytes ∈ reads₁, bytes ≠ [])
    (hne₂ : ∀ bytes ∈ reads₂, bytes ≠ []) (hbytes : reads₁.flatten = reads₂.flatten) :
    (Packet.framer.rejects reads₁.flatten = false ∨
        Packet.framer.stretches reads₁ = Packet.framer.stretches reads₂ →
      (∀ address, serverReads address [] reads₁ = serverReads address [] reads₂) ∧
      ∀ c : Sdk.TcpClient.Handler, c.accumulator = [] →
        Sdk.TcpClient.handleReads c reads₁ = Sdk.TcpClient.handleReads c reads₂) ∧
    (Packet.framer.rejects reads₁.flatten = true → ∀ reads ∈ [reads₁,reads₂],
      ∃ before bytes rest, reads = before ++ bytes :: rest ∧
        Packet.framer.rejects before.flatten = false ∧
        Packet.framer.rejects (before.flatten ++ bytes) = true ∧
        (∀ address, serverReads address [] reads = (do
          forM (Packet.framer.split reads₁.flatten).1 (Management.deliver address)
          serverReads address [] rest)) ∧
        ∀ c : Sdk.TcpClient.Handler, c.accumulator = [] →
          Sdk.TcpClient.handleReads c reads =
            Sdk.TcpClient.handleReads (c.handOn (Packet.framer.split reads₁.flatten).1) rest) := by
  constructor
  · rintro (hclean | hsame)
    · refine reads_same_stretches hne₁ hne₂ ?_
      rw [Packet.framer_stable.stretches_clean hclean,hbytes,
        Packet.framer_stable.stretches_clean (hbytes ▸ hclean)]
    · exact reads_same_stretches hne₁ hne₂ hsame
  · intro hrejects reads hmem
    have hcases : reads = reads₁ ∨ reads = reads₂ := by simpa using hmem
    rcases hcases with rfl | rfl
    · exact reads_rejected hne₁ hrejects
    · rw [hbytes] at hrejects ⊢
      exact reads_rejected hne₂ hrejects

/-- Two ping requests in one read and in three, and one behind an unknown type byte. -/
theorem cutting_irrelevant_pings :
    serverReads (.v4 1 1) [] [[6,0,8,0,0,0,0,0,0,0,7,6,0,8,0,0,0,0,0,0,0,8]] =
      serverReads (.v4 1 1) [] [[6,0,8,0],[0,0,0,0,0,0,7,6,0,8],[0,0,0,0,0,0,0,8]] ∧
    ∀ reads ∈ ([[[255,6,0,8,0,0,0,0,0,0,0,7]],[[255],[6,0,8,0,0,0,0,0,0,0,7]]] : List (List Bytes)),
      ∃ before bytes rest, reads = before ++ bytes :: rest ∧
        serverReads (.v4 1 1) [] reads = serverReads (.v4 1 1) [] rest := by
  have hseven : (Packet.pingRequest 7).encode = some [6,0,8,0,0,0,0,0,0,0,7] := by decide
  have hfirst : Packet.framer.decode [6,0,8,0,0,0,0,0,0,0,7,6,0,8,0,0,0,0,0,0,0,8] =
      .ok (.pingRequest 7,11) := Packet.decode_encode hseven [6,0,8,0,0,0,0,0,0,0,8]
  have hsecond : Packet.framer.decode [6,0,8,0,0,0,0,0,0,0,8] = .ok (.pingRequest 8,11) :=
    Packet.decode_self (by decide)
  have hclean : Packet.framer.rejects [6,0,8,0,0,0,0,0,0,0,7,6,0,8,0,0,0,0,0,0,0,8] = false := by
    rw [Packet.framer.rejects_ok hfirst]
    change Packet.framer.rejects [6,0,8,0,0,0,0,0,0,0,8] = false
    rw [Packet.framer.rejects_ok hsecond]
    exact Packet.framer_stable.rejects_nil
  have hunknown : Packet.framer.decode [255,6,0,8,0,0,0,0,0,0,0,7] = .error (.unknownPacketId 255) :=
    Packet.decode_unknown rfl
  obtain ⟨hsame,_⟩ := cutting_irrelevant (by simp) (by simp)
    (show [[6,0,8,0,0,0,0,0,0,0,7,6,0,8,0,0,0,0,0,0,0,8]].flatten =
      [[6,0,8,0],[0,0,0,0,0,0,7,6,0,8],[0,0,0,0,0,0,0,8]].flatten from rfl)
  obtain ⟨_,hrejected⟩ := cutting_irrelevant (by simp) (by simp)
    (show [[255,6,0,8,0,0,0,0,0,0,0,7]].flatten = [[255],[6,0,8,0,0,0,0,0,0,0,7]].flatten from rfl)
  refine ⟨(hsame (.inl hclean)).1 _,fun reads hmem => ?_⟩
  obtain ⟨before,bytes,rest,hreads,_,_,hserver,_⟩ := hrejected
    ((Packet.framer.rejects_error hunknown).trans rfl) reads hmem
  refine ⟨before,bytes,rest,hreads,(hserver _).trans ?_⟩
  change (do
    forM (Packet.framer.split [255,6,0,8,0,0,0,0,0,0,0,7]).1 (Management.deliver (.v4 1 1))
    serverReads (.v4 1 1) [] rest) = _
  rw [Packet.framer.split_error hunknown]
  rfl

/-- A ping request behind an unknown type byte: in the next read it is answered, in the
same read it is lost, on the server and on the client. -/
theorem rejected_read_loses :
    ¬(∀ reads₁ reads₂ : List Bytes, (∀ bytes ∈ reads₁, bytes ≠ []) → (∀ bytes ∈ reads₂, bytes ≠ []) →
      reads₁.flatten = reads₂.flatten → ∀ address,
        serverReads address [] reads₁ = serverReads address [] reads₂) ∧
    ¬(∀ reads₁ reads₂ : List Bytes, (∀ bytes ∈ reads₁, bytes ≠ []) → (∀ bytes ∈ reads₂, bytes ≠ []) →
      reads₁.flatten = reads₂.flatten →
        Sdk.TcpClient.handleReads .new reads₁ = Sdk.TcpClient.handleReads .new reads₂) := by
  have hping : Packet.framer.split [6,0,8,0,0,0,0,0,0,0,7] = ([.pingRequest 7],[]) := by
    have hself := Packet.framer_encodes.split_append (a := .pingRequest 7) (w := [6,0,8,0,0,0,0,0,0,0,7])
      (by decide) []
    rwa [List.append_nil,Packet.framer_encodes.split_nil] at hself
  have hbad : ∀ rest, Packet.framer.split (255 :: rest) = ([],[]) := fun rest =>
    Packet.framer.split_error (Packet.decode_unknown (e := .unknownPacketId 255) rfl)
  have hone : [[255,6,0,8,0,0,0,0,0,0,0,7]].foldl Packet.framer.feed ([],[]) = ([],[]) := by
    simp only [List.foldl_cons,List.foldl_nil,Framer.feed,List.nil_append,hbad]
  have htwo : [[255],[6,0,8,0,0,0,0,0,0,0,7]].foldl Packet.framer.feed ([],[]) =
      ([.pingRequest 7],[]) := by
    simp only [List.foldl_cons,List.foldl_nil,Framer.feed,List.nil_append,hbad,hping]
  have hne₁ : ∀ bytes ∈ ([[255,6,0,8,0,0,0,0,0,0,0,7]] : List Bytes), bytes ≠ [] := by simp
  have hne₂ : ∀ bytes ∈ ([[255],[6,0,8,0,0,0,0,0,0,0,7]] : List Bytes), bytes ≠ [] := by simp
  constructor
  · intro h
    have hsame := h _ _ hne₁ hne₂ rfl (.v4 1 1)
    have hfirst := serverReads_feed hne₁ (.v4 1 1) [] []
    have hsecond := serverReads_feed hne₂ (.v4 1 1) [] []
    rw [hone] at hfirst
    rw [htwo] at hsecond
    cases hfirst.symm.trans (hsame.trans hsecond)
  · intro h
    have hsame := h _ _ hne₁ hne₂ rfl
    obtain ⟨first,hfirst,hlost⟩ := Sdk.TcpClient.handleReads_feed hne₁ .new
    obtain ⟨second,hsecond,hkept⟩ := Sdk.TcpClient.handleReads_feed hne₂ .new
    cases hfirst.symm.trans (hsame.trans hsecond)
    cases hone.symm.trans (hlost.symm.trans (hkept.trans htwo))

end VoiceApp.System
