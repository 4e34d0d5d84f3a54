import VoiceApp.Base.WireFormat

/-! # Canonical images

A parser accepts more than one image of a value: every byte but zero is read as `true`.
Nothing else is free. What is read is what would be written, exactly if every byte read as
a boolean is zero or one.
-/
namespace WireFormat
open BigEndian

/-- What `g` finds in front of each of the elements that `p` parses. -/
def collectN {α : Type} (p : List UInt8 → Parsed α) (g : List UInt8 → List UInt8) :
    ℕ → List UInt8 → List UInt8
  | 0, _ => []
  | n + 1, b => g b ++ match p b with
    | .done _ mid => collectN p g n mid
    | _ => []

namespace Format

/-- The bytes that are read as booleans. -/
def flags : Format → List UInt8 → List UInt8
  | bool, b => b.take 1
  | seq f g, b => f.flags b ++ match f.parse b with
    | .done _ mid => g.flags mid
    | _ => []
  | list f, b => match takeBytes 2 b with
    | .done n mid => collectN f.parse f.flags (ofBytes n) mid
    | _ => []
  | _, _ => []

/-- A byte that a boolean is written as. -/
def IsFlag (x : UInt8) : Prop := x = 0 ∨ x = 1

instance (x : UInt8) : Decidable (IsFlag x) := inferInstanceAs (Decidable (x = 0 ∨ x = 1))

/-- The parser takes bytes off the front. -/
theorem parse_front {f : Format} {b rest : List UInt8} {v : f.Val} (h : f.parse b = .done v rest) :
    ∃ front, b = front ++ rest := by
  have hN : ∀ {α : Type} {p : List UInt8 → Parsed α},
      (∀ {b rest a}, p b = .done a rest → ∃ front, b = front ++ rest) →
      ∀ {n b rest as}, parseN p n b = .done as rest → ∃ front, b = front ++ rest := by
    intro α p hp n
    induction n with
    | zero =>
      intro b rest as h
      cases h
      exact ⟨[],rfl⟩
    | succ n ih =>
      intro b rest as h
      obtain ⟨a,mid,ha,h⟩ := Parsed.bind_eq_done h
      obtain ⟨as',has,rfl⟩ := Parsed.map_eq_done h
      obtain ⟨x,rfl⟩ := hp ha
      obtain ⟨y,rfl⟩ := ih has
      exact ⟨x ++ y,(List.append_assoc x y rest).symm⟩
  induction f generalizing b rest with
  | word w =>
    obtain ⟨bs,hbs,_⟩ := Parsed.map_eq_done h
    exact ⟨bs,(takeBytes_eq_done hbs).2.symm⟩
  | bool =>
    obtain ⟨bs,hbs,_⟩ := Parsed.map_eq_done h
    exact ⟨bs,(takeBytes_eq_done hbs).2.symm⟩
  | str =>
    obtain ⟨len,mid,hl,hk⟩ := Parsed.bind_eq_done h
    obtain ⟨bs,after,hb,hv⟩ := Parsed.bind_eq_done hk
    obtain ⟨_,rfl⟩ := takeBytes_eq_done hl
    obtain ⟨_,rfl⟩ := takeBytes_eq_done hb
    cases hu : ofUtf8 bs with
    | none => simp [hu] at hv
    | some s =>
      simp only [hu,Parsed.done.injEq] at hv
      rw [hv.2]
      exact ⟨len ++ bs,(List.append_assoc len bs rest).symm⟩
  | seq f g ihf ihg =>
    obtain ⟨x,mid,hx,h⟩ := Parsed.bind_eq_done h
    obtain ⟨y,hy,rfl⟩ := Parsed.map_eq_done h
    obtain ⟨front,rfl⟩ := ihf hx
    obtain ⟨back,rfl⟩ := ihg hy
    exact ⟨front ++ back,(List.append_assoc front back rest).symm⟩
  | list f ih =>
    obtain ⟨len,mid,hl,hk⟩ := Parsed.bind_eq_done h
    obtain ⟨_,rfl⟩ := takeBytes_eq_done hl
    obtain ⟨front,rfl⟩ := hN ih hk
    exact ⟨len ++ front,(List.append_assoc len front rest).symm⟩
  | rest =>
    cases h
    exact ⟨b,(List.append_nil b).symm⟩

/-- Two parts in a row are both what they were read from, or the whole is not. -/
theorem image_seq {x y b mid rest front : List UInt8} (hb : b = front ++ mid)
    (hlen : x.length = front.length) : x ++ y ++ rest = b ↔ x ++ mid = b ∧ y ++ rest = mid := by
  subst hb
  constructor
  · intro h
    rw [List.append_assoc] at h
    obtain ⟨rfl,hy⟩ := List.append_inj h hlen
    exact ⟨rfl,hy⟩
  · rintro ⟨hx,rfl⟩
    rw [List.append_assoc,hx]

section Elements
variable {α : Type} {p : List UInt8 → Parsed α} {enc : α → Option (List UInt8)}
  {g : List UInt8 → List UInt8}

/-- Repetition keeps the correspondence of an element's image and its flags. -/
theorem parseN_image
    (hlen : ∀ {b rest a w}, p b = .done a rest → enc a = some w →
      ∃ front, b = front ++ rest ∧ w.length = front.length)
    (himage : ∀ {b rest a w}, p b = .done a rest → enc a = some w →
      (w ++ rest = b ↔ ∀ x ∈ g b, IsFlag x))
    {n : ℕ} {b rest : List UInt8} {as : List α} {ws : List (List UInt8)}
    (h : parseN p n b = .done as rest) (hw : as.mapM enc = some ws) :
    ws.flatten ++ rest = b ↔ ∀ x ∈ collectN p g n b, IsFlag x := by
  induction n generalizing b as ws with
  | zero =>
    cases h
    cases hw
    simp [collectN]
  | succ n ih =>
    obtain ⟨a,mid,ha,h⟩ := Parsed.bind_eq_done h
    obtain ⟨as',has,rfl⟩ := Parsed.map_eq_done h
    simp only [List.mapM_cons,Option.bind_eq_bind,Option.bind_eq_some_iff] at hw
    obtain ⟨w,hwa,ws',hws,hw⟩ := hw
    cases hw
    obtain ⟨front,hb,hfront⟩ := hlen ha hwa
    rw [List.flatten_cons,image_seq hb hfront,himage ha hwa,ih has hws,collectN,ha,
      List.forall_mem_append]

end Elements

/-- A word is read as it is written. -/
theorem word_bytes (w : Word) {bs : List UInt8} (h : bs.length = w.width) :
    w.bytes (w.wrap (ofBytes bs)) = bs := by
  have hlt := ofBytes_lt bs
  have hback : w.toNat (w.wrap (ofBytes bs)) = ofBytes bs := by
    rw [h] at hlt
    cases w with
    | u8 => exact Nat.mod_eq_of_lt hlt
    | u16 => exact Nat.mod_eq_of_lt hlt
    | u32 => exact Nat.mod_eq_of_lt hlt
    | u64 => exact Nat.mod_eq_of_lt hlt
  rw [Word.bytes,hback,← h,toBytes_ofBytes]

/-- The image of a value takes as many bytes as the value was read from. -/
theorem image_length {f : Format} {b rest w : List UInt8} {v : f.Val} (h : f.parse b = .done v rest)
    (hw : f.write v = some w) : ∃ front, b = front ++ rest ∧ w.length = front.length := by
  obtain ⟨front,rfl⟩ := parse_front h
  have hsize := (parse_done h).2
  rw [List.length_append] at hsize
  refine ⟨front,rfl,?_⟩
  rw [write_length hw]
  omega

/-- What has been read is the image of the value, exactly if its booleans are flags. -/
theorem parse_image {f : Format} {b rest w : List UInt8} {v : f.Val} (h : f.parse b = .done v rest)
    (hw : f.write v = some w) : w ++ rest = b ↔ ∀ x ∈ f.flags b, IsFlag x := by
  induction f generalizing b rest w with
  | word width =>
    cases hw
    obtain ⟨bs,hbs,rfl⟩ := Parsed.map_eq_done h
    obtain ⟨hlen,rfl⟩ := takeBytes_eq_done hbs
    simp [word_bytes width hlen,flags]
  | bool =>
    cases hw
    obtain ⟨bs,hbs,rfl⟩ := Parsed.map_eq_done h
    obtain ⟨hlen,rfl⟩ := takeBytes_eq_done hbs
    obtain ⟨x,rfl⟩ := List.length_eq_one_iff.mp hlen
    have hnat : ofBytes [x] = x.toNat := by simp [ofBytes]
    by_cases hx : x = 0
    · subst hx
      simp [flags,IsFlag,hnat]
    · have hne : (ofBytes [x] != 0) = true := by
        rw [hnat,bne_iff_ne]
        exact fun h0 => hx (UInt8.toNat_inj.mp h0)
      simp [flags,IsFlag,hne,hx,eq_comm]
  | str =>
    obtain ⟨len,mid,hl,hk⟩ := Parsed.bind_eq_done h
    obtain ⟨bs,after,hb,hv⟩ := Parsed.bind_eq_done hk
    obtain ⟨hl2,rfl⟩ := takeBytes_eq_done hl
    obtain ⟨hbl,rfl⟩ := takeBytes_eq_done hb
    obtain ⟨_,rfl⟩ := write_str hw
    cases hu : ofUtf8 bs with
    | none => simp [hu] at hv
    | some s =>
      simp only [hu,Parsed.done.injEq] at hv
      obtain ⟨rfl,rfl⟩ := hv
      have hutf := utf8_of_ofUtf8 hu
      have hsize : s.utf8ByteSize = ofBytes len := by rw [← utf8_length,hutf,hbl]
      have himage : toBytes 2 s.utf8ByteSize = len := by rw [hsize,← hl2,toBytes_ofBytes]
      simp [himage,hutf,flags]
  | seq f g ihf ihg =>
    obtain ⟨x,mid,hx,h⟩ := Parsed.bind_eq_done h
    obtain ⟨y,hy,rfl⟩ := Parsed.map_eq_done h
    obtain ⟨wx,wy,hwx,hwy,rfl⟩ := write_seq hw
    obtain ⟨front,hb,hfront⟩ := image_length hx hwx
    have hfst := ihf hx hwx
    have hsnd := ihg hy hwy
    rw [image_seq hb hfront,hfst,hsnd,flags,hx,List.forall_mem_append]
  | list f ih =>
    obtain ⟨len,mid,hl,hk⟩ := Parsed.bind_eq_done h
    have htake := hl
    obtain ⟨hl2,rfl⟩ := takeBytes_eq_done hl
    obtain ⟨_,ws,hws,rfl⟩ := write_list hw
    have hcount := (parseN_done f.Fits f.size parse_done hk).1
    have himage : toBytes 2 (List.length v) = len := by rw [hcount,← hl2,toBytes_ofBytes]
    have hrest := parseN_image (fun h hw => image_length h hw) (fun h hw => ih h hw) hk hws
    rw [himage,List.append_assoc,List.append_cancel_left_eq,hrest,flags,htake]
  | rest =>
    cases h
    cases hw
    simp [flags]

end Format
end WireFormat
