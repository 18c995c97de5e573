import HermesOps.Hermesfile.ProfileCursors
import HermesOps.Properties.JournalRoundTrip
import Mathlib.Data.String.Basic

/-! The cursors of a listing. A cursor is accepted exactly when it is the text that was written for the
    profile that it names, under the same secret and for the same state; so a client that follows the
    cursors goes on where it stopped, and a cursor cannot be changed into another. -/

namespace HermesOps.Profiles

open Schemes Hermesfile
open Controller (Json FloatRules loads dumps canonicalJson)

variable {x : CursorRules} {secret : String} {state : Option ProfileState} {profileName sandboxId : String}

/-! ### Bytes -/

theorem decodeUtf8_utf8 (s : String) : decodeUtf8 (utf8 s) = some s := by
  unfold decodeUtf8 utf8
  have hbytes : (⟨s.toUTF8.data.toList.toArray⟩ : ByteArray) = s.toByteArray := by
    rw [Array.toArray_toList]
    rfl
  rw [hbytes]
  unfold String.fromUTF8?
  rw [dif_pos s.isValidUTF8]
  rfl

theorem length_utf8 (s : String) : (utf8 s).length = s.utf8ByteSize := by
  rw [utf8, Array.length_toList]
  rfl

theorem urlDigit_isBase64url : ∀ n < 64, isBase64url (urlDigit n) = true ∧ urlDigit n ≠ '.' := by
  decide

theorem encode_isBase64url (l : List UInt8) : (Base64.encode urlAlphabet l).all isBase64url = true := by
  rw [List.all_eq_true]
  intro c hc
  obtain ⟨n, hn, rfl⟩ := Base64.mem_encode l hc
  exact (urlDigit_isBase64url n hn).1

theorem dot_not_mem_encode (l : List UInt8) : '.' ∉ Base64.encode urlAlphabet l := by
  intro hc
  obtain ⟨n, hn, heq⟩ := Base64.mem_encode l hc
  exact (urlDigit_isBase64url n hn).2 heq.symm

theorem decodeBase64url_encode {l : List UInt8} (h : l ≠ []) :
    decodeBase64url (Base64.encode urlAlphabet l) = some l := by
  have hne : Base64.encode urlAlphabet l ≠ [] := by
    intro hnil
    exact h (Base64.encode_injective (hnil.trans rfl : _ = Base64.encode urlAlphabet []))
  unfold decodeBase64url
  rw [if_pos ⟨hne, Base64.length_encode_mod l, encode_isBase64url l⟩, Base64.decode_encode,
    Option.bind_some,
    if_pos rfl]

theorem decodeBase64url_some {segment : List Char} {l : List UInt8} (h : decodeBase64url segment = some l) :
    segment = Base64.encode urlAlphabet l := by
  unfold decodeBase64url at h
  split at h
  · obtain ⟨decoded, -, h⟩ := Option.bind_eq_some_iff.1 h
    split at h
    · rename_i hsegment
      obtain rfl := Option.some.inj h
      exact hsegment
    · cases h
  · cases h

/-! ### Payloads -/

theorem cursorMembers_plain {f : FloatRules} :
    Controller.Plain f (.obj (cursorMembers state profileName sandboxId)) := by
  refine ⟨⟨trivial, trivial, ?_, ?_, trivial⟩, ?_⟩
  · cases state <;> trivial
  · exact (by decide : (Nat.toDigits 10 1).length ≤ Controller.maxIntDigits)
  · exact (by decide : ["profile_name", "sandbox_id", "state", "v"].Pairwise (· < ·))

theorem loads_cursorPayload {f : FloatRules} :
    (decodeUtf8 (cursorPayload state profileName sandboxId)).bind (loads f) =
      some (.obj (cursorMembers state profileName sandboxId)) := by
  rw [cursorPayload, decodeUtf8_utf8, Option.bind_some, Controller.loads_canonical cursorMembers_plain]

theorem text_injective {s s' : ProfileState} (h : s.text = s'.text) : s = s' := by
  cases s <;> cases s' <;> first | rfl | exact absurd h (by decide)

theorem stateValue_injective {s s' : Option ProfileState} (h : stateValue s = stateValue s') : s = s' := by
  cases s with
  | none =>
    cases s' with
    | none => rfl
    | some b => cases h
  | some a =>
    cases s' with
    | none => cases h
    | some b => rw [text_injective (Json.str.inj h)]

theorem matchesState_iff {value : Json} :
    matchesState state (some value) = true ↔ value = stateValue state := by
  cases state with
  | none => cases value <;> simp [matchesState, stateValue]
  | some s => cases value <;> simp [matchesState, stateValue, eq_comm]

theorem dumps_cursorMembers : dumps (.obj (cursorMembers state profileName sandboxId)) =
    some (canonicalJson (.obj (cursorMembers state profileName sandboxId))) := by
  refine if_pos ?_
  cases state <;> rfl

/-- A dictionary with the four fields lists them in order. -/
theorem members_eq {members : Controller.Members} (hsorted : (members.map Prod.fst).Pairwise (· < ·))
    (hall : ∀ key ∈ members.map Prod.fst, key ∈ cursorFields)
    (hevery : ∀ key ∈ cursorFields, key ∈ members.map Prod.fst) :
    ∃ a b c d, members = [("profile_name", a), ("sandbox_id", b), ("state", c), ("v", d)] := by
  have hkeys : members.map Prod.fst = ["profile_name", "sandbox_id", "state", "v"] := by
    have hfields : ["profile_name", "sandbox_id", "state", "v"].Pairwise (· < ·) := by decide
    refine List.Perm.eq_of_pairwise (fun a b _ _ (hab : a < b) hba => absurd (hab.trans hba) (lt_irrefl _))
      hsorted hfields ?_
    refine (List.perm_ext_iff_of_nodup (hsorted.imp fun h => h.ne)
      (hfields.imp fun h => h.ne)).2 fun key => ?_
    constructor
    · intro hkey
      have := hall key hkey
      simp only [cursorFields, List.mem_cons, List.not_mem_nil, or_false] at this ⊢
      tauto
    · intro hkey
      refine hevery key ?_
      simp only [cursorFields, List.mem_cons, List.not_mem_nil, or_false] at hkey ⊢
      tauto
  rcases members with _ | ⟨⟨k₁, a⟩, _ | ⟨⟨k₂, b⟩, _ | ⟨⟨k₃, c⟩, _ | ⟨⟨k₄, d⟩, _ | ⟨y, rest⟩⟩⟩⟩⟩ <;>
    simp only [List.map_cons, List.map_nil, List.cons.injEq, reduceCtorEq, and_false, and_true] at hkeys
  obtain ⟨rfl, rfl, rfl, rfl⟩ := hkeys
  exact ⟨a, b, c, d, rfl⟩

/-- A payload is read when it is the payload of the name and the identifier. -/
theorem readPayload_iff (hf : x.floats.Sound) {payload : List UInt8} :
    readPayload x state payload = some (profileName, sandboxId) ↔
      namePattern.fullMatch profileName = true ∧ isSandboxId sandboxId = true ∧
        payload = cursorPayload state profileName sandboxId := by
  constructor
  · intro h
    unfold readPayload at h
    split at h
    · rename_i members hloads
      obtain ⟨text, htext, hloads⟩ := Option.bind_eq_some_iff.1 hloads
      dsimp only at h
      split at h
      · rename_i hfields
        obtain ⟨hall, hevery, hversion, hstate⟩ := hfields
        have hvalid := Controller.loads_valid hf hloads
        obtain ⟨a, b, c, d, rfl⟩ := members_eq hvalid.2
          (fun key hkey => of_decide_eq_true (List.all_eq_true.1 hall key hkey))
          (fun key hkey => of_decide_eq_true (List.all_eq_true.1 hevery key hkey))
        obtain rfl : c = stateValue state := matchesState_iff.1 hstate
        obtain rfl : d = .int 1 := by
          change isVersion (some d) = true at hversion
          cases d <;> simp [isVersion] at hversion
          rw [hversion]
        have htexts : ∃ name id, a = .str name ∧ b = .str id := by
          cases a <;> cases b <;> first | exact ⟨_, _, rfl, rfl⟩ | cases h
        obtain ⟨name, id, rfl, rfl⟩ := htexts
        change (if _ then some (name, id) else none) = some (profileName, sandboxId) at h
        split at h
        · rename_i hpatterns
          obtain ⟨rfl, rfl⟩ := Prod.mk.inj (Option.some.inj h)
          refine ⟨hpatterns.1, hpatterns.2.1, ?_⟩
          have hcanonical := hpatterns.2.2
          change (dumps (.obj (cursorMembers state name id))).map utf8 = some payload at hcanonical
          rw [dumps_cursorMembers] at hcanonical
          exact (Option.some.inj hcanonical).symm
        · cases h
      · cases h
    · cases h
  · rintro ⟨hname, hid, rfl⟩
    unfold readPayload
    rw [loads_cursorPayload]
    dsimp only
    have hfields : (((cursorMembers state profileName sandboxId).map Prod.fst).all
        fun key => key ∈ cursorFields) = true ∧
        (cursorFields.all fun key => key ∈ (cursorMembers state profileName sandboxId).map Prod.fst)
          = true ∧
        isVersion (Controller.Members.get? (cursorMembers state profileName sandboxId) "v") = true ∧
        matchesState state (Controller.Members.get? (cursorMembers state profileName sandboxId) "state")
          = true := by
      refine ⟨?_, ?_, rfl, matchesState_iff.2 rfl⟩
      · exact (by decide : (["profile_name", "sandbox_id", "state", "v"].all
          fun key => key ∈ cursorFields) = true)
      · exact (by decide : (cursorFields.all fun key => key ∈ ["profile_name", "sandbox_id", "state", "v"])
          = true)
    rw [if_pos hfields]
    exact if_pos ⟨hname, hid, by rw [dumps_cursorMembers]; rfl⟩

/-! ### Sizes -/

theorem escape_size_le (c : Char) : (Controller.escape c).utf8ByteSize ≤ 6 := by
  have hchar : c.toString.utf8ByteSize ≤ 4 := by
    rw [Char.toString_eq_singleton, String.utf8ByteSize_singleton]
    exact c.utf8Size_le_four
  have hhex : ∀ a < 2, ∀ b < 16, ("\\u00" ++ String.ofList
      [Controller.hexDigit a, Controller.hexDigit b]).utf8ByteSize ≤ 6 := by decide
  have hunicode : c.toNat < 32 → ("\\u00" ++ String.ofList
      [Controller.hexDigit (c.toNat / 16), Controller.hexDigit (c.toNat % 16)]).utf8ByteSize ≤ 6 :=
    fun hc => hhex _ (by omega) _ (by omega)
  unfold Controller.escape
  repeat' split
  all_goals first | decide | exact hunicode ‹_› | omega

theorem quote_size_le (s : String) : (Controller.quote s).utf8ByteSize ≤ 6 * s.length + 2 := by
  have hjoin : ∀ l : List Char, (String.join (l.map Controller.escape)).utf8ByteSize ≤ 6 * l.length := by
    intro l
    induction l with
    | nil => exact Nat.le_refl 0
    | cons c l ih =>
      have hc := escape_size_le c
      rw [List.map_cons, String.join_cons, String.utf8ByteSize_append, List.length_cons]
      omega
  have hmark : "\"".utf8ByteSize = 1 := by decide
  have hs := hjoin s.toList
  rw [String.length_toList] at hs
  unfold Controller.quote
  rw [String.utf8ByteSize_append, String.utf8ByteSize_append, hmark]
  omega

theorem cursorPayload_size (hname : profileName.length ≤ 63) (hid : sandboxId.length ≤ 40) :
    (cursorPayload state profileName sandboxId).length ≤ 1000 := by
  have hjoin (a b c d : String) : ",".intercalate [a, b, c, d] = a ++ "," ++ b ++ "," ++ c ++ "," ++ d :=
    rfl
  have hstr (s : String) : canonicalJson (.str s) = Controller.quote s := by rw [canonicalJson]
  have hkeys : (Controller.quote "profile_name").utf8ByteSize = 14 ∧
      (Controller.quote "sandbox_id").utf8ByteSize = 12 ∧ (Controller.quote "state").utf8ByteSize = 7 ∧
      (Controller.quote "v").utf8ByteSize = 3 ∧ (canonicalJson (.int 1)).utf8ByteSize = 1 := by decide
  have hmarks : ":".utf8ByteSize = 1 ∧ ",".utf8ByteSize = 1 ∧ "\x7b".utf8ByteSize = 1 ∧
      "\x7d".utf8ByteSize = 1 := by decide
  have hstate : (canonicalJson (stateValue state)).utf8ByteSize ≤ 10 := by
    cases state with
    | none => decide
    | some s => cases s <;> decide
  have hnameSize := quote_size_le profileName
  have hidSize := quote_size_le sandboxId
  rw [cursorPayload, length_utf8, cursorMembers, canonicalJson, Controller.canonicalMembers,
    Controller.canonicalMembers, Controller.canonicalMembers, Controller.canonicalMembers,
    Controller.canonicalMembers, hjoin]
  simp only [hstr, String.utf8ByteSize_append, hkeys, hmarks]
  omega

theorem name_length (h : namePattern.fullMatch profileName = true) : profileName.length ≤ 63 := by
  have hspans : namePattern.Spans 1 63 :=
    (Regex.spans_set (p := lowerAlnum)).seq
      (((Regex.spans_set (p := Regex.chars [('a', 'z'), ('0', '9')] "-")).upTo
      61).seq (Regex.spans_set (p := lowerAlnum))).optional
  exact (hspans.length h).2

theorem sandboxId_length (h : isSandboxId sandboxId = true) : sandboxId.length = 40 := by
  obtain ⟨htake, hlen, -⟩ := of_decide_eq_true h
  have hlead := congrArg List.length htake
  rw [List.length_take, show "sandbox-".length = 8 from rfl,
    show "sandbox-".toList.length = 8 from rfl] at hlead
  rw [List.length_drop, show "sandbox-".length = 8 from rfl] at hlen
  rw [← String.length_toList]
  omega

/-! ### Cursors -/

theorem takeWhile_encode (l : List UInt8) (rest : List Char) :
    (Base64.encode urlAlphabet l ++ '.' :: rest).takeWhile
    (fun c => c ≠ '.') = Base64.encode urlAlphabet l := by
  rw [List.takeWhile_append_of_pos, List.takeWhile_cons_of_neg (by simp), List.append_nil]
  intro c hc
  exact decide_eq_true fun heq => dot_not_mem_encode l (heq ▸ hc)

theorem dropWhile_encode (l : List UInt8) (rest : List Char) :
    (Base64.encode urlAlphabet l ++ '.' :: rest).dropWhile (fun c => c ≠ '.') = '.' :: rest := by
  rw [List.dropWhile_append_of_pos, List.dropWhile_cons_of_neg (by simp)]
  intro c hc
  exact decide_eq_true fun heq => dot_not_mem_encode l (heq ▸ hc)

theorem toList_encodeCursor : (encodeCursor x secret state (profileName, sandboxId)).toList =
    Base64.encode urlAlphabet (cursorPayload state profileName sandboxId) ++ '.' ::
      Base64.encode urlAlphabet (x.signature secret (cursorPayload state profileName sandboxId)) :=
  String.toList_ofList

/-- The text of a cursor falls into the two segments. -/
theorem segments_eq {text : List Char} (h : text.count '.' = 1) :
    text = text.takeWhile (fun c => c ≠ '.') ++ '.' :: (text.dropWhile fun c => c ≠ '.').drop 1 := by
  have hsplit := List.takeWhile_append_dropWhile (p := fun c : Char => decide (c ≠ '.')) (l := text)
  cases hdrop : text.dropWhile fun c => c ≠ '.' with
  | nil =>
    rw [hdrop, List.append_nil] at hsplit
    have hnone : '.' ∉ text := by
      intro hmem
      rw [← hsplit] at hmem
      have hother := List.mem_takeWhile_imp (p := fun c : Char => decide (c ≠ '.')) hmem
      exact of_decide_eq_true hother rfl
    rw [List.count_eq_zero_of_not_mem hnone] at h
    cases h
  | cons c rest =>
    have hdot : c = '.' := by
      have hhead := List.head?_dropWhile_not (fun c : Char => decide (c ≠ '.')) text
      rw [hdrop] at hhead
      simpa using hhead
    rw [hdrop, hdot] at hsplit
    exact hsplit.symm

/-- A cursor is accepted exactly when it was written for the profile that it names. -/
theorem readCursor_iff (hf : x.floats.Sound) (hdigest : ∀ k m, (x.hmac k m).length = 32) {cursor : String} :
    readCursor x secret state cursor = some (profileName, sandboxId) ↔
      namePattern.fullMatch profileName = true ∧ isSandboxId sandboxId = true ∧
        cursor = encodeCursor x secret state (profileName, sandboxId) := by
  constructor
  · intro h
    unfold readCursor at h
    dsimp only at h
    split at h
    · rename_i hshape
      obtain ⟨payload, hpayload, h⟩ := Option.bind_eq_some_iff.1 h
      obtain ⟨signature, hsignature, h⟩ := Option.bind_eq_some_iff.1 h
      split at h
      · rename_i hsigned
        obtain ⟨hname, hid, rfl⟩ := (readPayload_iff hf).1 h
        refine ⟨hname, hid, String.toList_inj.1 ?_⟩
        rw [toList_encodeCursor, segments_eq hshape.2.2, decodeBase64url_some hpayload,
          decodeBase64url_some hsignature, hsigned.2]
      · cases h
    · cases h
  · rintro ⟨hname, hid, rfl⟩
    have hsize : (cursorPayload state profileName sandboxId).length ≤ 1000 :=
      cursorPayload_size (name_length hname) (sandboxId_length hid).le
    have hlength :
      (Base64.encode urlAlphabet (cursorPayload state profileName sandboxId)).length ≤ 1400 := by
      rw [Base64.length_encode]
      omega
    have hsigned : (x.signature secret (cursorPayload state profileName sandboxId)).length = 32 :=
      hdigest _ _
    have hsignature : (Base64.encode urlAlphabet
        (x.signature secret (cursorPayload state profileName sandboxId))).length = 43 := by
      rw [Base64.length_encode, hsigned]
    have hpayload : cursorPayload state profileName sandboxId ≠ [] := by
      intro hnil
      have hloads : (decodeUtf8 (cursorPayload state profileName sandboxId)).bind (loads x.floats) =
          some (.obj (cursorMembers state profileName sandboxId)) := loads_cursorPayload
      rw [hnil] at hloads
      cases hloads
    unfold readCursor
    dsimp only
    rw [toList_encodeCursor, if_pos, takeWhile_encode, dropWhile_encode, decodeBase64url_encode hpayload,
      Option.bind_some, List.drop_one, List.tail_cons, decodeBase64url_encode, Option.bind_some,
        if_pos ⟨hsigned, rfl⟩]
    · exact (readPayload_iff hf).2 ⟨hname, hid, rfl⟩
    · intro hnil
      rw [hnil] at hsigned
      cases hsigned
    · rw [List.length_append, List.length_cons, hsignature, List.count_append, List.count_cons_self,
        List.count_eq_zero_of_not_mem (dot_not_mem_encode _),
          List.count_eq_zero_of_not_mem (dot_not_mem_encode _)]
      omega

theorem decodeCursor_iff (hf : x.floats.Sound) (hdigest : ∀ k m, (x.hmac k m).length = 32) {cursor : String}
    {after : String × String} : decodeCursor x secret state cursor = .ok after ↔
      namePattern.fullMatch after.1 = true ∧ isSandboxId after.2 = true ∧
        cursor = encodeCursor x secret state after := by
  rw [← readCursor_iff hf hdigest]
  unfold decodeCursor
  cases readCursor x secret state cursor with
  | none => simp
  | some a => simp

/-- The payload tells the state and the key. -/
theorem cursorPayload_injective {state' : Option ProfileState} {profileName' sandboxId' : String}
    (h : cursorPayload state profileName sandboxId = cursorPayload state' profileName' sandboxId') :
    state = state' ∧ profileName = profileName' ∧ sandboxId = sandboxId' := by
  have hloads : (decodeUtf8 (cursorPayload state profileName sandboxId)).bind (loads ⟨fun _ => false, id⟩) =
      some (.obj (cursorMembers state profileName sandboxId)) := loads_cursorPayload
  rw [h, loads_cursorPayload] at hloads
  simp only [cursorMembers, Option.some.injEq, Json.obj.injEq, List.cons.injEq, Prod.mk.injEq,
    Json.str.injEq,
    true_and, and_true] at hloads
  exact ⟨(stateValue_injective hloads.2.2).symm, hloads.1.symm, hloads.2.1.symm⟩

/-- Two cursors with one text have one payload, signed alike. -/
theorem encodeCursor_eq {secret' : String} {state' : Option ProfileState} {after after' : String × String}
    (h : encodeCursor x secret state after = encodeCursor x secret' state' after') :
    cursorPayload state after.1 after.2 = cursorPayload state' after'.1 after'.2 ∧
      x.signature secret (cursorPayload state after.1 after.2) =
        x.signature secret' (cursorPayload state' after'.1 after'.2) := by
  have hlist := congrArg String.toList h
  rw [toList_encodeCursor, toList_encodeCursor] at hlist
  have hleft := congrArg (List.takeWhile fun c => c ≠ '.') hlist
  have hright := congrArg (List.dropWhile fun c => c ≠ '.') hlist
  rw [takeWhile_encode, takeWhile_encode] at hleft
  rw [dropWhile_encode, dropWhile_encode] at hright
  exact ⟨Base64.encode_injective hleft, Base64.encode_injective (List.cons.inj hright).2⟩

/-- The cursor of a profile is accepted under its secret and for its state, and names the profile; nothing
    else is accepted. For another state it is refused, and under another secret it is refused unless the
    two signatures of its payload agree. -/
theorem cursors_exact (hf : x.floats.Sound) (hdigest : ∀ k m, (x.hmac k m).length = 32) (secret : String)
    (state : Option ProfileState) :
    (∀ cursor after, decodeCursor x secret state cursor = .ok after ↔
      namePattern.fullMatch after.1 = true ∧ isSandboxId after.2 = true ∧
        cursor = encodeCursor x secret state after) ∧
    ∀ after secret' state', (state' = state → x.signature secret' (cursorPayload state after.1 after.2) ≠
        x.signature secret (cursorPayload state after.1 after.2)) →
      decodeCursor x secret' state' (encodeCursor x secret state after) = .error invalidCursor := by
  refine ⟨fun cursor after => decodeCursor_iff hf hdigest, fun after secret' state' hother => ?_⟩
  have hnone : readCursor x secret' state' (encodeCursor x secret state after) = none := by
    by_contra hsome
    obtain ⟨⟨name, id⟩, hread⟩ := Option.ne_none_iff_exists'.1 hsome
    obtain ⟨-, -, htext⟩ := (readCursor_iff hf hdigest).1 hread
    obtain ⟨hpayload, hsignature⟩ := encodeCursor_eq htext
    have hstate := (cursorPayload_injective hpayload).1
    refine hother hstate.symm ?_
    rw [hsignature, hpayload]
  unfold decodeCursor
  rw [hnone]

def sampleSecret : String := "0123456789abcdef0123456789abcdef"

/-- The two digests under the secret: the key of the cursors, and the signature of one payload. -/
def sampleCursorRules : CursorRules where
  hmac _ message :=
    if message.length = 35 then
      [63, 154, 58, 131, 49, 146, 223, 206, 53, 96, 154, 149, 46, 23, 57, 160,
        105, 148, 184, 17, 11, 21, 187, 33, 96, 9, 53, 119, 135, 211, 168, 251]
    else
      [147, 27, 164, 11, 95, 43, 27, 100, 38, 180, 63, 70, 83, 218, 150, 248,
        92, 182, 156, 9, 80, 55, 240, 83, 154, 55, 3, 99, 225, 251, 122, 165]
  floats := Controller.sampleFloats

theorem sampleCursorRules_digest : ∀ k m, (sampleCursorRules.hmac k m).length = 32 := by
  intro k m
  change (if m.length = 35 then _ else _ : List UInt8).length = 32
  split <;> rfl

theorem sample_cursors :
    (∀ cursor after, decodeCursor sampleCursorRules sampleSecret none cursor = .ok after ↔
      namePattern.fullMatch after.1 = true ∧ isSandboxId after.2 = true ∧
        cursor = encodeCursor sampleCursorRules sampleSecret none after) ∧
    ∀ after secret' state', (state' = none →
        sampleCursorRules.signature secret' (cursorPayload none after.1 after.2) ≠
          sampleCursorRules.signature sampleSecret (cursorPayload none after.1 after.2)) →
      decodeCursor sampleCursorRules secret' state'
        (encodeCursor sampleCursorRules sampleSecret none after) =
        .error invalidCursor :=
  cursors_exact Controller.sampleFloats_sound sampleCursorRules_digest sampleSecret none

end HermesOps.Profiles
