import HermesOps.Controller.WebSocketFrames
import Mathlib.Tactic.FinCases

/-! `read_client_frame` and `encode_client_frame` are inverse to each other. What the reader accepts is put
    together from what its steps accept, in both directions at once; the frames it accepts are then seen
    to be the encodings, each under the one header its length has. -/

namespace HermesOps.Controller

open Schemes Scan

/-- The payload of a close frame is allowed: it is empty, or a close code with a reason in UTF-8. -/
def CloseAllowed (payload : List UInt8) : Prop :=
  payload.length ≠ 1 ∧
    (2 ≤ payload.length →
      (ofBigEndian (payload.take 2) ∈ closeCodes ∨
        (3000 ≤ ofBigEndian (payload.take 2) ∧ ofBigEndian (payload.take 2) ≤ 4999)) ∧
      (payload.drop 2).toByteArray.validateUTF8 = true)

/-- The frames within the limits of the reader. -/
structure Allowed (maximumPayload : Int) (f : ClientFrame) : Prop where
  opcode : f.opcode ∈ supportedOpcodes
  size : f.payload.length < 2 ^ 63
  control : 0x8 ≤ f.opcode → f.payload.length ≤ 125
  bounded : (f.payload.length : Int) ≤ maximumPayload
  close : f.opcode = 0x8 → CloseAllowed f.payload

/-! ### Bytes -/

theorem forall_byte {P : UInt8 → Prop} (h : ∀ n : Fin 256, P (UInt8.ofFin n)) (b : UInt8) : P b := by
  simpa using h b.toFin

theorem high_bit_clear (b : UInt8) : b &&& 0x80 = 0 ↔ b.toNat < 128 := by
  revert b
  exact forall_byte (by decide +kernel)

/-- A first byte that is accepted is the one that is written for its opcode. -/
theorem first_byte (b : UInt8) : b &&& 0x70 = 0 → b &&& 0x80 ≠ 0 →
    b = UInt8.ofNat (0x80 ||| (b &&& 0x0F).toNat) := by
  revert b
  exact forall_byte (by decide +kernel)

theorem first_byte_of_opcode (opcode : Nat) (h : opcode < 16) :
    UInt8.ofNat (0x80 ||| opcode) &&& 0x70 = 0 ∧ UInt8.ofNat (0x80 ||| opcode) &&& 0x80 ≠ 0 ∧
      (UInt8.ofNat (0x80 ||| opcode) &&& 0x0F).toNat = opcode := by
  revert opcode
  decide +kernel

theorem second_byte (b : UInt8) : b &&& 0x80 ≠ 0 →
    b = UInt8.ofNat (0x80 ||| (b &&& 0x7F).toNat) ∧ (b &&& 0x7F).toNat < 128 := by
  revert b
  exact forall_byte (by decide +kernel)

theorem second_byte_of_code (code : Nat) (h : code < 128) :
    UInt8.ofNat (0x80 ||| code) &&& 0x80 ≠ 0 ∧ (UInt8.ofNat (0x80 ||| code) &&& 0x7F).toNat = code := by
  revert code
  decide +kernel

theorem opcode_lt {opcode : Nat} (h : opcode ∈ supportedOpcodes) : opcode < 16 := by
  simp only [supportedOpcodes, List.mem_cons, List.not_mem_nil, or_false] at h
  omega

/-! ### Masks -/

@[simp] theorem applyMask_length (mask payload : List UInt8) :
    (applyMask mask payload).length = payload.length := by
  rw [applyMask, List.length_mapIdx]

/-- Masking twice changes nothing. -/
@[simp] theorem applyMask_applyMask (mask payload : List UInt8) :
    applyMask mask (applyMask mask payload) = payload := by
  refine List.ext_getElem (by simp) ?_
  intro i _ _
  simp only [applyMask, List.getElem_mapIdx]
  rw [UInt8.xor_assoc, UInt8.xor_self, UInt8.xor_zero]

/-! ### What each step reads -/

theorem readExact_sound (count : Nat) (s : Source UInt8) (xs : List UInt8) (s' : Source UInt8)
    (h : readExact count s = .ok (xs, s')) : s.unread = xs ++ s'.unread ∧ xs.length = count := by
  induction count using Nat.strong_induction_on generalizing s xs s' with
  | _ count ih =>
    rw [readExact] at h
    split at h
    · rename_i hzero
      obtain ⟨rfl, rfl⟩ := Prod.mk.inj (Except.ok.inj h)
      exact ⟨rfl, hzero.symm⟩
    · rename_i hcount
      dsimp only at h
      split at h
      · cases h
      · rename_i hchunk
        have hpos := List.length_pos_iff.mpr hchunk
        have hle := s.read_length_le count
        split at h
        · rename_i rest s'' hrest
          obtain ⟨rfl, rfl⟩ := Prod.mk.inj (Except.ok.inj h)
          obtain ⟨hunread, hlength⟩ := ih _ (by omega) _ _ _ hrest
          refine ⟨?_, ?_⟩
          · rw [← s.read_append count, hunread, List.append_assoc]
          · rw [List.length_append, hlength]
            omega
        · cases h

theorem readExact_complete (count : Nat) (s : Source UInt8) (xs rest : List UInt8)
    (hlength : xs.length = count) (hs : s.unread = xs ++ rest) :
    ∃ s', readExact count s = .ok (xs, s') ∧ s'.unread = rest := by
  induction count using Nat.strong_induction_on generalizing s xs with
  | _ count ih =>
    rw [readExact]
    by_cases hcount : count = 0
    · obtain rfl : xs = [] := List.length_eq_zero_iff.mp (hlength.trans hcount)
      exact ⟨s, dif_pos hcount, hs⟩
    · rw [dif_neg hcount]
      have hne : s.unread ≠ [] := by
        rintro hnil
        rw [hnil] at hs
        have := congrArg List.length hs
        simp only [List.length_nil, List.length_append] at this
        omega
      have hchunk : (s.read count).1 ≠ [] := Source.read_ne_nil hcount hne
      have hpos := List.length_pos_iff.mpr hchunk
      have hle := s.read_length_le count
      -- the piece that is read is a beginning of what is wanted
      have hbegins : (s.read count).1 <+: s.unread := ⟨_, s.read_append count⟩
      have hwanted : xs <+: s.unread := ⟨rest, hs.symm⟩
      obtain ⟨ys, hys⟩ := List.prefix_of_prefix_length_le hbegins hwanted (by omega)
      have hunread : (s.read count).2.unread = ys ++ rest := by
        have happ := s.read_append count
        rw [hs, ← hys, List.append_assoc] at happ
        exact List.append_cancel_left happ
      have hlen : ys.length = count - (s.read count).1.length := by
        have := congrArg List.length hys
        rw [List.length_append] at this
        omega
      obtain ⟨s', hok, hs'⟩ := ih _ (by omega) _ ys hlen hunread
      refine ⟨s', ?_, hs'⟩
      dsimp only
      rw [dif_neg hchunk, hok]
      dsimp only
      rw [hys]

theorem readExact_parses (count : Nat) :
    Parses (readExact count) (fun xs ys => ys = xs ∧ xs.length = count) where
  sound s a s' h := ⟨a, (readExact_sound count s a s' h).1, rfl, (readExact_sound count s a s' h).2⟩
  complete s xs rest a h hs := by
    obtain ⟨rfl, hlength⟩ := h
    exact readExact_complete count s a rest hlength hs

/-- The bytes that follow the second byte of a frame with the seven bits and the length of the payload. -/
def LengthBytes (code : Nat) (xs : List UInt8) (length : Nat) : Prop :=
  (code = 126 ∧ xs = bigEndian 2 length ∧ 126 ≤ length ∧ length < 65536) ∨
    (code = 127 ∧ xs = bigEndian 8 length ∧ 65536 ≤ length ∧ length < 2 ^ 63) ∨
    (code ≠ 126 ∧ code ≠ 127 ∧ xs = [] ∧ length = code)

/-- The highest bit of eight bytes is clear when their number is below 2 ^ 63. -/
theorem high_bit_of_bytes {xs : List UInt8} (h : xs.length = 8) :
    xs.getD 0 0 &&& 0x80 = 0 ↔ ofBigEndian xs < 2 ^ 63 := by
  cases xs with
  | nil => cases h
  | cons b bs =>
    have hbs : bs.length = 7 := by simpa using h
    have hlt := ofBigEndian_lt bs
    rw [List.getD_cons_zero, high_bit_clear, ofBigEndian]
    rw [hbs] at hlt ⊢
    omega

theorem readLength_parses (code : Nat) : Parses (readLength code) (LengthBytes code) := by
  unfold readLength
  refine (Parses.ite _ (fun _ => (readExact_parses 2).bind fun _ =>
      Parses.check _ _ fun _ => Parses.pure _) (fun _ => Parses.ite _ (fun _ =>
        (readExact_parses 8).bind fun _ => Parses.check _ _ fun _ =>
          Parses.check _ _ fun _ => Parses.pure _) (fun _ => Parses.pure _))).congr ?_
  intro xs length
  unfold LengthBytes
  split
  · rename_i hcode
    constructor
    · rintro ⟨bytes, _, _, rfl, ⟨hbytes, hlen⟩, hmin, rfl, rfl⟩
      rw [hbytes] at hmin ⊢
      rw [List.append_nil]
      have hlt := ofBigEndian_lt bytes
      have hpack := bigEndian_ofBigEndian bytes
      rw [hlen] at hlt hpack
      exact Or.inl ⟨hcode, hpack.symm, hmin, by omega⟩
    · rintro (⟨_, rfl, hmin, hmax⟩ | ⟨h127, _⟩ | ⟨hne, _⟩)
      · have hback : ofBigEndian (bigEndian 2 length) = length :=
          ofBigEndian_bigEndian (by omega)
        exact ⟨bigEndian 2 length, _, [], (List.append_nil _).symm, ⟨rfl, by simp⟩,
          by rw [hback]; exact hmin, rfl, hback.symm⟩
      · omega
      · exact absurd hcode hne
  · rename_i hcode
    split
    · rename_i hcode'
      constructor
      · rintro ⟨bytes, _, _, rfl, ⟨hbytes, hlen⟩, hbit, hmin, rfl, rfl⟩
        rw [hbytes] at hbit hmin ⊢
        rw [List.append_nil]
        have hpack := bigEndian_ofBigEndian bytes
        rw [hlen] at hpack
        exact Or.inr (Or.inl ⟨hcode', hpack.symm, hmin, (high_bit_of_bytes hlen).mp hbit⟩)
      · rintro (⟨h126, _⟩ | ⟨_, rfl, hmin, hmax⟩ | ⟨_, hne, _⟩)
        · omega
        · have hback : ofBigEndian (bigEndian 8 length) = length :=
            ofBigEndian_bigEndian (by omega)
          refine ⟨bigEndian 8 length, _, [], (List.append_nil _).symm, ⟨rfl, by simp⟩, ?_, ?_, rfl,
            hback.symm⟩
          · exact (high_bit_of_bytes (by simp)).mpr (by rw [hback]; exact hmax)
          · rw [hback]; exact hmin
        · exact absurd hcode' hne
    · rename_i hcode'
      constructor
      · rintro ⟨rfl, rfl⟩
        exact Or.inr (Or.inr ⟨hcode, hcode', rfl, rfl⟩)
      · rintro (⟨h126, _⟩ | ⟨h127, _⟩ | ⟨_, _, rfl, rfl⟩)
        · exact absurd h126 hcode
        · exact absurd h127 hcode'
        · exact ⟨rfl, rfl⟩

theorem checkPayload_parses (opcode : Nat) (payload : List UInt8) :
    Parses (checkPayload opcode payload)
      (fun xs _ => xs = [] ∧ (opcode = 0x8 → CloseAllowed payload)) := by
  unfold checkPayload checkClosePayload
  refine (Parses.ite _ (fun _ => Parses.check _ _ fun _ => Parses.ite _ (fun _ =>
    Parses.check _ _ fun _ => Parses.require _ _) (fun _ => Parses.pure ()))
      (fun _ => Parses.pure ())).congr ?_
  intro xs _
  unfold CloseAllowed
  by_cases hop : opcode = 0x8
  · by_cases hlen : 2 ≤ payload.length
    · simp only [if_pos hop, if_pos hlen]
      tauto
    · simp only [if_pos hop, if_neg hlen]
      tauto
  · simp [hop]

/-- The texts of a frame: two bytes of header, the bytes of the length, the mask and the masked payload. -/
def FrameBytes (maximumPayload : Int) (bytes : List UInt8) (f : ClientFrame) : Prop :=
  ∃ (first second : UInt8) (lengthBytes mask : List UInt8),
    bytes = first :: second :: (lengthBytes ++ (mask ++ applyMask mask f.payload)) ∧
    (first &&& 0x70 = 0 ∧ first &&& 0x80 ≠ 0) ∧ second &&& 0x80 ≠ 0 ∧
    f.opcode = (first &&& 0x0F).toNat ∧ f.opcode ∈ supportedOpcodes ∧
    LengthBytes (second &&& 0x7F).toNat lengthBytes f.payload.length ∧
    ¬(0x8 ≤ f.opcode ∧ 125 < f.payload.length) ∧ (f.payload.length : Int) ≤ maximumPayload ∧
    mask.length = 4 ∧ (f.opcode = 0x8 → CloseAllowed f.payload)

theorem readClientFrame_texts (maximumPayload : Int) :
    Parses (readClientFrame maximumPayload) (FrameBytes maximumPayload) := by
  unfold readClientFrame
  refine ((readExact_parses 2).bind fun _ => Parses.check _ _ fun _ => Parses.check _ _ fun _ =>
    Parses.check _ _ fun _ => (readLength_parses _).bind fun _ => Parses.check _ _ fun _ =>
      Parses.check _ _ fun _ => (readExact_parses 4).bind fun _ => (readExact_parses _).bind fun _ =>
        (checkPayload_parses _ _).bind fun _ => Parses.pure _).congr ?_
  intro bytes f
  constructor
  · rintro ⟨header, _, _, rfl, ⟨rfl, htwo⟩, hfirst, hsecond, hopcode, lengthBytes, length, _, rfl,
      hlength, hcontrol, hmax, mask, _, _, rfl, ⟨rfl, hfour⟩, masked, _, _, rfl, ⟨rfl, rfl⟩, _, _, _,
      rfl, ⟨rfl, hclose⟩, rfl, rfl⟩
    obtain ⟨first, second, rfl⟩ := List.length_eq_two.mp htwo
    refine ⟨first, second, lengthBytes, _, ?_, hfirst, hsecond, rfl, hopcode, ?_, ?_, ?_, hfour, hclose⟩
    · simp
    · simpa using hlength
    · simpa using hcontrol
    · simpa using hmax
  · rintro ⟨first, second, lengthBytes, mask, rfl, hfirst, hsecond, hopcode, hmem, hlength, hcontrol,
      hmax, hfour, hclose⟩
    obtain ⟨opcode, payload⟩ := f
    obtain rfl : opcode = (first &&& 0x0F).toNat := hopcode
    refine ⟨[first, second], _, _, rfl, ⟨rfl, rfl⟩, hfirst, hsecond, hmem, lengthBytes, payload.length,
      _, rfl, hlength, hcontrol, hmax, mask, _, _, rfl, ⟨rfl, hfour⟩, applyMask mask payload, _, [],
      (List.append_nil _).symm, ⟨rfl, applyMask_length mask payload⟩, [], (), [], rfl, ⟨rfl, ?_⟩, rfl,
      ?_⟩
    · simpa using hclose
    · simp

/-! ### What the encoder writes -/

theorem packNumber_one {opcode : Nat} (h : opcode ∈ supportedOpcodes) :
    packNumber 1 (0x80 ||| opcode) = some [UInt8.ofNat (0x80 ||| opcode)] := by
  simp only [supportedOpcodes, List.mem_cons, List.not_mem_nil, or_false] at h
  rcases h with rfl | rfl | rfl | rfl | rfl <;> rfl

/-- The second byte and the bytes of the length that are written for a length. -/
theorem encodeHeader_eq (first : List UInt8) (length : Nat) (h : length < 2 ^ 63) :
    ∃ code lengthBytes, code < 128 ∧ LengthBytes code lengthBytes length ∧
      encodeHeader first length = some (first ++ UInt8.ofNat (0x80 ||| code) :: lengthBytes) := by
  unfold encodeHeader packNumber
  by_cases hsmall : length < 126
  · exact ⟨length, [], by omega, .inr (.inr ⟨by omega, by omega, rfl, rfl⟩), by rw [if_pos hsmall]⟩
  · by_cases hmedium : length ≤ 0xFFFF
    · refine ⟨126, bigEndian 2 length, by omega, .inl ⟨rfl, rfl, by omega, by omega⟩, ?_⟩
      rw [if_neg hsmall, if_pos hmedium, if_pos (by omega)]
      simp
    · refine ⟨127, bigEndian 8 length, by omega, .inr (.inl ⟨rfl, rfl, by omega, h⟩), ?_⟩
      rw [if_neg hsmall, if_neg hmedium, if_pos (by omega)]
      simp

/-- A length has one code and one text. -/
theorem LengthBytes.unique {code code' length : Nat} {xs ys : List UInt8}
    (h : LengthBytes code xs length) (h' : LengthBytes code' ys length) (hcode : code < 128)
    (hcode' : code' < 128) : code = code' ∧ xs = ys := by
  rcases h with ⟨rfl, rfl, hmin, hmax⟩ | ⟨rfl, rfl, hmin, hmax⟩ | ⟨h6, h7, rfl, rfl⟩ <;>
    rcases h' with ⟨rfl, rfl, hmin', hmax'⟩ | ⟨rfl, rfl, hmin', hmax'⟩ | ⟨h6', h7', rfl, rfl⟩ <;>
    first | exact ⟨rfl, rfl⟩ | omega

theorem LengthBytes.lt {code length : Nat} {xs : List UInt8} (h : LengthBytes code xs length)
    (hcode : code < 128) : length < 2 ^ 63 := by
  rcases h with ⟨_, _, _, hmax⟩ | ⟨_, _, _, hmax⟩ | ⟨_, _, _, rfl⟩ <;> omega

theorem encodeClientFrame_eq {opcode : Nat} {payload mask bytes : List UInt8}
    (hopcode : opcode ∈ supportedOpcodes) (hsize : payload.length < 2 ^ 63) :
    encodeClientFrame opcode payload mask = some bytes ↔
      mask.length = 4 ∧ ∃ code lengthBytes, code < 128 ∧ LengthBytes code lengthBytes payload.length ∧
        bytes = UInt8.ofNat (0x80 ||| opcode) :: UInt8.ofNat (0x80 ||| code) ::
          (lengthBytes ++ (mask ++ applyMask mask payload)) := by
  obtain ⟨code, lengthBytes, hcode, hlength, hheader⟩ :=
    encodeHeader_eq [UInt8.ofNat (0x80 ||| opcode)] payload.length hsize
  unfold encodeClientFrame
  rw [packNumber_one hopcode]
  by_cases hfour : mask.length = 4
  · rw [if_neg (not_not.mpr hfour), Option.bind_eq_bind, Option.bind_some, hheader, Option.bind_some]
    constructor
    · intro h
      refine ⟨hfour, code, lengthBytes, hcode, hlength, ?_⟩
      rw [← Option.some.inj h]
      simp
    · rintro ⟨_, code', lengthBytes', hcode', hlength', rfl⟩
      obtain ⟨rfl, rfl⟩ := hlength.unique hlength' hcode hcode'
      simp
  · rw [if_pos hfour]
    simp [hfour]

/-- The reader accepts the frames within its limits, each in the texts the encoder writes for it. -/
theorem readClientFrame_parses (maximumPayload : Int) :
    Parses (readClientFrame maximumPayload) (fun bytes f => Allowed maximumPayload f ∧
      ∃ mask, encodeClientFrame f.opcode f.payload mask = some bytes) := by
  refine (readClientFrame_texts maximumPayload).congr ?_
  intro bytes f
  constructor
  · rintro ⟨first, second, lengthBytes, mask, rfl, ⟨hreserved, hfinal⟩, hmasked, hopcode, hmem, hlength,
      hcontrol, hmax, hfour, hclose⟩
    obtain ⟨hsecond, hcode⟩ := second_byte second hmasked
    have hsize := hlength.lt hcode
    refine ⟨⟨hmem, hsize, by omega, hmax, hclose⟩, mask, ?_⟩
    rw [encodeClientFrame_eq hmem hsize]
    refine ⟨hfour, _, lengthBytes, hcode, hlength, ?_⟩
    rw [hopcode, ← first_byte first hreserved hfinal, ← hsecond]
  · rintro ⟨hallowed, mask, hencode⟩
    rw [encodeClientFrame_eq hallowed.opcode hallowed.size] at hencode
    obtain ⟨hfour, code, lengthBytes, hcode, hlength, rfl⟩ := hencode
    obtain ⟨hreserved, hfinal, hopcode⟩ := first_byte_of_opcode f.opcode (opcode_lt hallowed.opcode)
    obtain ⟨hmasked, hback⟩ := second_byte_of_code code hcode
    refine ⟨_, _, lengthBytes, mask, rfl, ⟨hreserved, hfinal⟩, hmasked, hopcode.symm, hallowed.opcode,
      ?_, ?_, hallowed.bounded, hfour, hallowed.close⟩
    · rwa [hback]
    · rintro ⟨hlow, hhigh⟩
      have := hallowed.control hlow
      omega

/-- The texts a stream of frames is a concatenation of. -/
def Frames (maximumPayload : Int) : List (List UInt8) → List ClientFrame → Prop :=
  List.Forall₂ fun bytes f =>
    Allowed maximumPayload f ∧ ∃ mask, encodeClientFrame f.opcode f.payload mask = some bytes

/-- A frame within the limits is read back from its encoding, however the stream is split and whatever
    follows; what is read is the encoding of the frame it gives; and a stream has one decoding. -/
theorem client_frame_codec (maximumPayload : Int) :
    (∀ (opcode : Nat) (payload mask : List UInt8), mask.length = 4 →
      Allowed maximumPayload ⟨opcode, payload⟩ →
      ∃ bytes, encodeClientFrame opcode payload mask = some bytes ∧
        ∀ (s : Source UInt8) (following : List UInt8), s.unread = bytes ++ following →
          ∃ s', readClientFrame maximumPayload s = .ok (⟨opcode, payload⟩, s') ∧
            s'.unread = following) ∧
    (∀ (s s' : Source UInt8) (f : ClientFrame), readClientFrame maximumPayload s = .ok (f, s') →
      Allowed maximumPayload f ∧
        ∃ mask bytes, mask.length = 4 ∧ encodeClientFrame f.opcode f.payload mask = some bytes ∧
          s.unread = bytes ++ s'.unread) ∧
    (∀ (xss yss : List (List UInt8)) (fs gs : List ClientFrame), Frames maximumPayload xss fs →
      Frames maximumPayload yss gs → xss.flatten = yss.flatten → xss = yss ∧ fs = gs) := by
  have hparses := readClientFrame_parses maximumPayload
  refine ⟨?_, ?_, ?_⟩
  · intro opcode payload mask hfour hallowed
    obtain ⟨code, lengthBytes, hcode, hlength, _⟩ := encodeHeader_eq [] payload.length hallowed.size
    have hencode := (encodeClientFrame_eq hallowed.opcode hallowed.size).mpr
      ⟨hfour, code, lengthBytes, hcode, hlength, rfl⟩
    refine ⟨_, hencode, ?_⟩
    intro s following hs
    exact hparses.complete s _ following _ ⟨hallowed, mask, hencode⟩ hs
  · intro s s' f hread
    obtain ⟨bytes, hbytes, hallowed, mask, hencode⟩ := hparses.sound s f s' hread
    have hfour := ((encodeClientFrame_eq hallowed.opcode hallowed.size).mp hencode).1
    exact ⟨hallowed, mask, bytes, hfour, hencode, hbytes⟩
  · intro xss yss fs gs hx hy hflat
    refine hparses.unique_list ?_ hx hy hflat
    rintro f ⟨hallowed, mask, hencode⟩
    obtain ⟨_, _, _, _, _, hnil⟩ := (encodeClientFrame_eq hallowed.opcode hallowed.size).mp hencode
    cases hnil

theorem plainClose_allowed : Allowed maxClientFrameBytes ⟨0x8, [3, 232]⟩ where
  opcode := by decide
  size := by decide
  control := by decide
  bounded := by decide
  close _ := ⟨by decide, fun _ => ⟨.inl (by decide),
    ByteArray.validateUTF8_eq_true_iff.mpr ByteArray.isValidUTF8_empty⟩⟩

theorem client_frame_codec_close :
    ∃ bytes, encodeClientFrame 0x8 [3, 232] [1, 2, 3, 4] = some bytes ∧
      ∀ (s : Source UInt8) (following : List UInt8), s.unread = bytes ++ following →
        ∃ s', readClientFrame maxClientFrameBytes s = .ok (⟨0x8, [3, 232]⟩, s') ∧
          s'.unread = following :=
  (client_frame_codec maxClientFrameBytes).1 0x8 [3, 232] [1, 2, 3, 4] rfl plainClose_allowed

end HermesOps.Controller
