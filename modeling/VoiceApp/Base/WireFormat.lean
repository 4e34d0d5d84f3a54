import VoiceApp.Base.BigEndian

/-! # Length-prefixed wire formats

A format is a first-order description of a record layout: big-endian words,
booleans, 16-bit length-prefixed strings and lists, and a tail that takes whatever
is left. Writing is partial because of the 16-bit prefixes; parsing distinguishes
running out of bytes from bytes that are present but not valid UTF-8.
-/
namespace WireFormat
open BigEndian

/-- Widths of the unsigned integers a layout may contain. -/
inductive Word
  | u8 | u16 | u32 | u64
  deriving DecidableEq

namespace Word

def width : Word → ℕ
  | u8 => 1
  | u16 => 2
  | u32 => 4
  | u64 => 8

abbrev Val : Word → Type
  | u8 => UInt8
  | u16 => UInt16
  | u32 => UInt32
  | u64 => UInt64

def toNat : (w : Word) → w.Val → ℕ
  | u8, v => UInt8.toNat v
  | u16, v => UInt16.toNat v
  | u32, v => UInt32.toNat v
  | u64, v => UInt64.toNat v

def wrap : (w : Word) → ℕ → w.Val
  | u8, n => UInt8.ofNat n
  | u16, n => UInt16.ofNat n
  | u32, n => UInt32.ofNat n
  | u64, n => UInt64.ofNat n

theorem toNat_lt (w : Word) (v : w.Val) : w.toNat v < 256 ^ w.width := by
  cases w with
  | u8 => simpa [toNat,width] using UInt8.toNat_lt v
  | u16 => simpa [toNat,width] using UInt16.toNat_lt v
  | u32 => simpa [toNat,width] using UInt32.toNat_lt v
  | u64 => simpa [toNat,width] using UInt64.toNat_lt v

theorem wrap_toNat (w : Word) (v : w.Val) : w.wrap (w.toNat v) = v := by
  cases w <;> simp [toNat,wrap]

/-- The big-endian image of a word. -/
def bytes (w : Word) (v : w.Val) : List UInt8 := toBytes w.width (w.toNat v)

@[simp] theorem bytes_length (w : Word) (v : w.Val) : (w.bytes v).length = w.width :=
  toBytes_length _ _

theorem wrap_ofBytes_bytes (w : Word) (v : w.Val) : w.wrap (ofBytes (w.bytes v)) = v := by
  rw [bytes,ofBytes_toBytes (w.toNat_lt v),wrap_toNat]

end Word

/-! ## UTF-8 -/

/-- The UTF-8 bytes of a string. -/
def utf8 (s : String) : List UInt8 := s.toByteArray.data.toList

def ofUtf8 (bs : List UInt8) : Option String := String.fromUTF8? ⟨bs.toArray⟩

@[simp] theorem utf8_length (s : String) : (utf8 s).length = s.utf8ByteSize := rfl

@[simp] theorem ofUtf8_utf8 (s : String) : ofUtf8 (utf8 s) = some s := by
  have hb : (⟨(utf8 s).toArray⟩ : ByteArray) = s.toByteArray := by simp [utf8]
  have hv : s.toByteArray.IsValidUTF8 := s.isValidUTF8
  simp only [ofUtf8,String.fromUTF8?,hb,dif_pos hv]
  rfl

theorem utf8_of_ofUtf8 {bs : List UInt8} {s : String} (h : ofUtf8 bs = some s) : utf8 s = bs := by
  simp only [ofUtf8,String.fromUTF8?] at h
  split at h
  · cases h
    rfl
  · cases h

/-! ## Parsing results -/

inductive Parsed (α : Type)
  | done (value : α) (rest : List UInt8)
  | short
  | invalid

namespace Parsed
variable {α β : Type}

def bind : Parsed α → (α → List UInt8 → Parsed β) → Parsed β
  | done a rest, k => k a rest
  | short, _ => short
  | invalid, _ => invalid

def map (f : α → β) : Parsed α → Parsed β
  | done a rest => done (f a) rest
  | short => short
  | invalid => invalid

@[simp] theorem done_bind (a : α) (rest : List UInt8) (k : α → List UInt8 → Parsed β) :
    (done a rest).bind k = k a rest := rfl
@[simp] theorem done_map (f : α → β) (a : α) (rest : List UInt8) :
    (done a rest).map f = done (f a) rest := rfl

theorem bind_eq_done {x : Parsed α} {k : α → List UInt8 → Parsed β} {b : β} {rest : List UInt8}
    (h : x.bind k = done b rest) : ∃ a mid, x = done a mid ∧ k a mid = done b rest := by
  cases x with
  | done a mid => exact ⟨a,mid,rfl,h⟩
  | short => cases h
  | invalid => cases h

theorem map_eq_done {x : Parsed α} {f : α → β} {b : β} {rest : List UInt8}
    (h : x.map f = done b rest) : ∃ a, x = done a rest ∧ f a = b := by
  cases x with
  | done a mid =>
    cases h
    exact ⟨a,rfl,rfl⟩
  | short => cases h
  | invalid => cases h

end Parsed

/-- Take exactly `n` bytes off the front. -/
def takeBytes (n : ℕ) (b : List UInt8) : Parsed (List UInt8) :=
  if n ≤ b.length then .done (b.take n) (b.drop n) else .short

theorem takeBytes_append {n : ℕ} {w : List UInt8} (h : w.length = n) (s : List UInt8) :
    takeBytes n (w ++ s) = .done w s := by
  have hn : n ≤ (w ++ s).length := by
    rw [List.length_append]
    omega
  rw [takeBytes,if_pos hn,← h,List.take_left,List.drop_left]

theorem takeBytes_eq_done {n : ℕ} {b w rest : List UInt8} (h : takeBytes n b = .done w rest) :
    w.length = n ∧ w ++ rest = b := by
  unfold takeBytes at h
  split at h
  · cases h
    exact ⟨by simpa using ‹_›,List.take_append_drop n b⟩
  · cases h

/-- Run a parser a given number of times. -/
def parseN {α : Type} (p : List UInt8 → Parsed α) : ℕ → List UInt8 → Parsed (List α)
  | 0, b => .done [] b
  | n + 1, b => (p b).bind fun a mid => (parseN p n mid).map (a :: ·)

/-! ## Formats -/

inductive Format
  | word (w : Word)
  | bool
  | str
  | seq (f g : Format)
  | list (f : Format)
  | rest

namespace Format

abbrev Val : Format → Type
  | word w => w.Val
  | bool => Bool
  | str => String
  | seq f g => f.Val × g.Val
  | list f => List f.Val
  | rest => List UInt8

def u16Max : ℕ := 65535

def write : (f : Format) → f.Val → Option (List UInt8)
  | word w, v => some (w.bytes v)
  | bool, v => some [if v then 1 else 0]
  | str, s => if s.utf8ByteSize ≤ u16Max then some (toBytes 2 s.utf8ByteSize ++ utf8 s) else none
  | seq f g, v => (f.write v.1).bind fun x => (g.write v.2).map fun y => x ++ y
  | list f, vs =>
    if vs.length ≤ u16Max then (vs.mapM f.write).map fun ws => toBytes 2 vs.length ++ ws.flatten
    else none
  | rest, v => some v

def parse : (f : Format) → List UInt8 → Parsed f.Val
  | word w, b => (takeBytes w.width b).map fun bs => w.wrap (ofBytes bs)
  | bool, b => (takeBytes 1 b).map fun bs => ofBytes bs != 0
  | str, b => (takeBytes 2 b).bind fun len mid =>
      (takeBytes (ofBytes len) mid).bind fun bs after =>
        match ofUtf8 bs with
        | some s => .done s after
        | none => .invalid
  | seq f g, b => (f.parse b).bind fun x mid => (g.parse mid).map fun y => (x,y)
  | list f, b => (takeBytes 2 b).bind fun n mid => parseN f.parse (ofBytes n) mid
  | rest, b => .done b []

/-- A closed format knows where it ends. -/
def Closed : Format → Bool
  | word _ => true
  | bool => true
  | str => true
  | seq f g => f.Closed && g.Closed
  | list f => f.Closed
  | rest => false

/-- A layout may end in one open field. -/
def Tail : Format → Bool
  | seq f g => f.Closed && g.Tail
  | list f => f.Closed
  | _ => true

theorem write_str {s : String} {w : List UInt8} (h : write str s = some w) :
    s.utf8ByteSize ≤ u16Max ∧ w = toBytes 2 s.utf8ByteSize ++ utf8 s := by
  simp only [write] at h
  split at h
  · cases h
    exact ⟨‹_›,rfl⟩
  · cases h

theorem write_seq {f g : Format} {v : (seq f g).Val} {w : List UInt8} (h : write (seq f g) v = some w) :
    ∃ x y, f.write v.1 = some x ∧ g.write v.2 = some y ∧ w = x ++ y := by
  simp only [write] at h
  obtain ⟨x,hx,h⟩ := Option.bind_eq_some_iff.mp h
  obtain ⟨y,hy,rfl⟩ := Option.map_eq_some_iff.mp h
  exact ⟨x,y,hx,hy,rfl⟩

theorem write_list {f : Format} {vs : List f.Val} {w : List UInt8} (h : write (list f) vs = some w) :
    vs.length ≤ u16Max ∧ ∃ ws, vs.mapM f.write = some ws ∧ w = toBytes 2 vs.length ++ ws.flatten := by
  simp only [write] at h
  split at h
  · obtain ⟨ws,hws,rfl⟩ := Option.map_eq_some_iff.mp h
    exact ⟨‹_›,ws,hws,rfl⟩
  · cases h

/-- Repetition of a parser that inverts the writer on each element. -/
theorem parseN_mapM {α : Type} {p : List UInt8 → Parsed α} {enc : α → Option (List UInt8)}
    (hp : ∀ a w, enc a = some w → ∀ s, p (w ++ s) = .done a s)
    {vs : List α} {ws : List (List UInt8)} (h : vs.mapM enc = some ws) (s : List UInt8) :
    parseN p vs.length (ws.flatten ++ s) = .done vs s := by
  induction vs generalizing ws with
  | nil =>
    cases h
    rfl
  | cons v vs ih =>
    simp only [List.mapM_cons,Option.bind_eq_bind,Option.bind_eq_some_iff] at h
    obtain ⟨w,hw,rest,hrest,h⟩ := h
    cases h
    have hv := hp v w hw (rest.flatten ++ s)
    simp only [List.length_cons,parseN,List.flatten_cons,List.append_assoc,hv,Parsed.done_bind,
      ih hrest,Parsed.done_map]

theorem ofBytes_toBytes_u16 {n : ℕ} (h : n ≤ u16Max) : ofBytes (toBytes 2 n) = n :=
  ofBytes_toBytes (by unfold u16Max at h; omega)

/-- A closed format parses back what it wrote and leaves the suffix alone. -/
theorem parse_write_append {f : Format} (hf : f.Closed = true) {v : f.Val} {w : List UInt8}
    (h : f.write v = some w) (s : List UInt8) : f.parse (w ++ s) = .done v s := by
  induction f generalizing w s with
  | word width =>
    cases h
    simp only [parse,takeBytes_append (width.bytes_length v),Parsed.done_map,Word.wrap_ofBytes_bytes]
  | bool =>
    cases h
    have ht := takeBytes_append (n := 1) (w := [if v then 1 else 0]) rfl s
    simp only [parse,ht,Parsed.done_map]
    cases v <;> rfl
  | str =>
    obtain ⟨hlen,rfl⟩ := write_str h
    have hn := ofBytes_toBytes_u16 hlen
    simp only [parse,List.append_assoc,takeBytes_append (toBytes_length 2 _),Parsed.done_bind,hn,
      takeBytes_append (utf8_length v),ofUtf8_utf8]
  | seq f g ihf ihg =>
    obtain ⟨hf,hg⟩ := (Bool.and_eq_true _ _ ▸ hf : f.Closed = true ∧ g.Closed = true)
    obtain ⟨x,y,hx,hy,rfl⟩ := write_seq h
    simp only [parse,List.append_assoc,ihf hf hx,Parsed.done_bind,ihg hg hy,Parsed.done_map]
  | list f ih =>
    obtain ⟨hlen,ws,hws,rfl⟩ := write_list h
    have hn := ofBytes_toBytes_u16 hlen
    have hp := parseN_mapM (fun a w ha s => ih hf (v := a) (w := w) ha s) hws s
    simp only [parse,List.append_assoc,takeBytes_append (toBytes_length 2 _),Parsed.done_bind,hn,hp]
  | rest => cases hf

/-- With an open tail the round trip needs the exact slice. -/
theorem parse_write {f : Format} (hf : f.Tail = true) {v : f.Val} {w : List UInt8}
    (h : f.write v = some w) : f.parse w = .done v [] := by
  induction f generalizing w with
  | seq f g _ ihg =>
    obtain ⟨hf,hg⟩ := (Bool.and_eq_true _ _ ▸ hf : f.Closed = true ∧ g.Tail = true)
    obtain ⟨x,y,hx,hy,rfl⟩ := write_seq h
    simp only [parse,parse_write_append hf hx,Parsed.done_bind,ihg hg hy,Parsed.done_map]
  | rest =>
    cases h
    rfl
  | word width => simpa using parse_write_append (f := word width) rfl h []
  | bool => simpa using parse_write_append (f := bool) rfl h []
  | str => simpa using parse_write_append (f := str) rfl h []
  | list f _ => simpa using parse_write_append (f := list f) hf h []

/-! ## The domain of the writer -/

/-- Every length prefix fits in 16 bits. -/
def Fits : (f : Format) → f.Val → Prop
  | word _, _ => True
  | bool, _ => True
  | str, s => s.utf8ByteSize ≤ u16Max
  | seq f g, v => f.Fits v.1 ∧ g.Fits v.2
  | list f, vs => vs.length ≤ u16Max ∧ ∀ v ∈ vs, f.Fits v
  | rest, _ => True

/-- The number of bytes a value takes. -/
def size : (f : Format) → f.Val → ℕ
  | word w, _ => w.width
  | bool, _ => 1
  | str, s => 2 + s.utf8ByteSize
  | seq f g, v => f.size v.1 + g.size v.2
  | list f, vs => 2 + (vs.map f.size).sum
  | rest, v => v.length

theorem mapM_isSome_iff {α γ : Type} {enc : α → Option γ} {vs : List α} :
    (∃ ws, vs.mapM enc = some ws) ↔ ∀ v ∈ vs, ∃ w, enc v = some w := by
  induction vs with
  | nil => simp
  | cons v vs ih =>
    simp only [List.mapM_cons,Option.bind_eq_bind,Option.bind_eq_some_iff,List.forall_mem_cons,← ih]
    constructor
    · rintro ⟨_,w,hw,ws,hws,_⟩
      exact ⟨⟨w,hw⟩,⟨ws,hws⟩⟩
    · rintro ⟨⟨w,hw⟩,⟨ws,hws⟩⟩
      exact ⟨_,w,hw,ws,hws,rfl⟩

theorem mapM_flatten_length {α : Type} {enc : α → Option (List UInt8)} {len : α → ℕ}
    (h : ∀ a w, enc a = some w → w.length = len a) {vs : List α} {ws : List (List UInt8)}
    (hw : vs.mapM enc = some ws) : ws.flatten.length = (vs.map len).sum := by
  induction vs generalizing ws with
  | nil =>
    cases hw
    rfl
  | cons v vs ih =>
    simp only [List.mapM_cons,Option.bind_eq_bind,Option.bind_eq_some_iff] at hw
    obtain ⟨w,hv,rest,hrest,hw⟩ := hw
    cases hw
    rw [List.flatten_cons,List.length_append,h v w hv,ih hrest,List.map_cons,List.sum_cons]

theorem write_length {f : Format} {v : f.Val} {w : List UInt8} (h : f.write v = some w) :
    w.length = f.size v := by
  induction f generalizing w with
  | word width =>
    cases h
    exact width.bytes_length v
  | bool =>
    cases h
    rfl
  | str =>
    obtain ⟨_,rfl⟩ := write_str h
    rw [List.length_append,toBytes_length,utf8_length]
    rfl
  | seq f g ihf ihg =>
    obtain ⟨x,y,hx,hy,rfl⟩ := write_seq h
    rw [List.length_append,ihf hx,ihg hy]
    rfl
  | list f ih =>
    obtain ⟨_,ws,hws,rfl⟩ := write_list h
    rw [List.length_append,toBytes_length,mapM_flatten_length (fun _ _ => ih) hws]
    rfl
  | rest =>
    cases h
    rfl

/-- Writing fails on an overflowing length prefix and on nothing else. -/
theorem write_isSome_iff {f : Format} {v : f.Val} : (∃ w, f.write v = some w) ↔ f.Fits v := by
  induction f with
  | word width => simp [write,Fits]
  | bool => simp [write,Fits]
  | str => simp [write,Fits]
  | seq f g ihf ihg =>
    rw [Fits,← ihf,← ihg]
    constructor
    · rintro ⟨w,hw⟩
      obtain ⟨x,y,hx,hy,_⟩ := write_seq hw
      exact ⟨⟨x,hx⟩,⟨y,hy⟩⟩
    · rintro ⟨⟨x,hx⟩,⟨y,hy⟩⟩
      exact ⟨x ++ y,by simp only [write,hx,hy,Option.bind_some,Option.map_some]⟩
  | list f ih =>
    have hall : (∀ a ∈ (v : List f.Val), f.Fits a) ↔ ∃ ws, List.mapM f.write v = some ws := by
      rw [mapM_isSome_iff]
      exact forall₂_congr fun a _ => (ih (v := a)).symm
    change _ ↔ List.length v ≤ u16Max ∧ ∀ a ∈ (v : List f.Val), f.Fits a
    rw [hall]
    constructor
    · rintro ⟨w,hw⟩
      obtain ⟨hlen,ws,hws,_⟩ := write_list hw
      exact ⟨hlen,ws,hws⟩
    · rintro ⟨hlen,ws,hws⟩
      exact ⟨_,by simp only [write,if_pos hlen,hws,Option.map_some]; rfl⟩
  | rest => simp [write,Fits]

/-! ## What the parser accepts -/

theorem ofBytes_le_u16Max {bs : List UInt8} (h : bs.length = 2) : ofBytes bs ≤ u16Max := by
  have hlt := ofBytes_lt bs
  rw [h] at hlt
  unfold u16Max
  omega

theorem parseN_done {α : Type} {p : List UInt8 → Parsed α} (good : α → Prop) (len : α → ℕ)
    (hp : ∀ {a b rest}, p b = .done a rest → good a ∧ len a + rest.length = b.length)
    {n : ℕ} {b rest : List UInt8} {vs : List α} (h : parseN p n b = .done vs rest) :
    vs.length = n ∧ (∀ v ∈ vs, good v) ∧ (vs.map len).sum + rest.length = b.length := by
  induction n generalizing b vs with
  | zero =>
    cases h
    simp
  | succ n ih =>
    obtain ⟨a,mid,ha,h⟩ := Parsed.bind_eq_done h
    obtain ⟨as,has,rfl⟩ := Parsed.map_eq_done h
    obtain ⟨hgood,hlen⟩ := hp ha
    obtain ⟨hn,hall,hsum⟩ := ih has
    refine ⟨by rw [List.length_cons,hn],List.forall_mem_cons.mpr ⟨hgood,hall⟩,?_⟩
    rw [List.map_cons,List.sum_cons]
    omega

/-- An accepted value can be written again, in as many bytes as it was read from. -/
theorem parse_done {f : Format} {b rest : List UInt8} {v : f.Val} (h : f.parse b = .done v rest) :
    f.Fits v ∧ f.size v + rest.length = b.length := by
  induction f generalizing b rest with
  | word w =>
    obtain ⟨bs,hbs,_⟩ := Parsed.map_eq_done h
    obtain ⟨hlen,rfl⟩ := takeBytes_eq_done hbs
    exact ⟨trivial,by rw [List.length_append,hlen]; rfl⟩
  | bool =>
    obtain ⟨bs,hbs,_⟩ := Parsed.map_eq_done h
    obtain ⟨hlen,rfl⟩ := takeBytes_eq_done hbs
    exact ⟨trivial,by rw [List.length_append,hlen]; rfl⟩
  | str =>
    obtain ⟨len,mid,hl,hk⟩ := Parsed.bind_eq_done h
    obtain ⟨bs,after,hb,hv⟩ := Parsed.bind_eq_done hk
    obtain ⟨hl2,rfl⟩ := takeBytes_eq_done hl
    obtain ⟨hbl,rfl⟩ := takeBytes_eq_done hb
    change (match ofUtf8 bs with
      | some s => Parsed.done s after
      | none => Parsed.invalid) = _ at hv
    cases hu : ofUtf8 bs with
    | none =>
      rw [hu] at hv
      cases hv
    | some s =>
      rw [hu] at hv
      cases hv
      have hs : (utf8 v).length = bs.length := by rw [utf8_of_ofUtf8 hu]
      rw [utf8_length,hbl] at hs
      refine ⟨hs.le.trans (ofBytes_le_u16Max hl2),?_⟩
      simp only [size,List.length_append,hl2,hbl,hs]
      omega
  | seq f g ihf ihg =>
    obtain ⟨x,mid,hx,h⟩ := Parsed.bind_eq_done h
    obtain ⟨y,hy,rfl⟩ := Parsed.map_eq_done h
    obtain ⟨hfx,hlx⟩ := ihf hx
    obtain ⟨hgy,hly⟩ := ihg hy
    refine ⟨⟨hfx,hgy⟩,?_⟩
    simp only [size]
    omega
  | list f ih =>
    obtain ⟨len,mid,hl,hk⟩ := Parsed.bind_eq_done h
    obtain ⟨hl2,rfl⟩ := takeBytes_eq_done hl
    obtain ⟨hn,hall,hsum⟩ := parseN_done f.Fits f.size ih hk
    refine ⟨⟨hn ▸ ofBytes_le_u16Max hl2,hall⟩,?_⟩
    change 2 + (List.map f.size v).sum + rest.length = _
    rw [List.length_append,hl2]
    omega
  | rest =>
    cases h
    exact ⟨trivial,rfl⟩

end Format
end WireFormat
