import Mathlib.Data.List.Basic
import Mathlib.Data.List.Forall2
import Mathlib.Algebra.Group.Nat.Defs

/-! Scanners over a stream that delivers its elements in pieces. A read asks for a number of elements and gets
    some of them, at least one while any is left; how many is up to the transport. `Parses p R` says what a
    scanner does whatever the pieces are: it succeeds on exactly the streams that begin with a text of
    `R`, returns the value of that text and leaves the rest unread. Such a scanner reads every
    concatenation of texts in one way only. -/

namespace HermesOps.Schemes

variable {β ε α γ : Type}

/-- What is not yet read, and how long the transport makes each of the next pieces. -/
structure Source (β : Type) where
  unread : List β
  sizes : Nat → Nat

namespace Source

/-- One read of at most `count` elements, which is empty at the end of the stream only. -/
def read (s : Source β) (count : Nat) : List β × Source β :=
  let n := min (max 1 (s.sizes 0)) count
  (s.unread.take n, ⟨s.unread.drop n, fun i => s.sizes (i + 1)⟩)

theorem read_append (s : Source β) (count : Nat) :
    (s.read count).1 ++ (s.read count).2.unread = s.unread := by
  exact List.take_append_drop _ _

theorem read_length_le (s : Source β) (count : Nat) : (s.read count).1.length ≤ count := by
  have hlen : (s.read count).1.length ≤ min (max 1 (s.sizes 0)) count := List.length_take_le _ _
  omega

theorem read_ne_nil {s : Source β} {count : Nat} (hcount : count ≠ 0) (hs : s.unread ≠ []) :
    (s.read count).1 ≠ [] := by
  intro hnil
  rcases List.take_eq_nil_iff.mp hnil with hzero | hend
  · omega
  · exact hs hend

end Source

/-- A program that reads a source, returns a value or raises. -/
def Scan (β ε α : Type) := Source β → Except ε (α × Source β)

namespace Scan

instance : Monad (Scan β ε) where
  pure a := fun s => .ok (a, s)
  bind p f := fun s =>
    match p s with
    | .ok (a, s') => f a s'
    | .error e => .error e

def fail (e : ε) : Scan β ε α := fun _ => .error e

/-- Raise unless the condition holds. -/
def require (c : Prop) [Decidable c] (e : ε) : Scan β ε Unit := if c then pure () else fail e

theorem run_bind_ok {p : Scan β ε α} {f : α → Scan β ε γ} {s s' : Source β} {c : γ} :
    (p >>= f) s = .ok (c, s') ↔ ∃ a t, p s = .ok (a, t) ∧ f a t = .ok (c, s') := by
  change (match p s with | .ok (a, t) => f a t | .error e => .error e) = .ok (c, s') ↔ _
  constructor
  · intro h
    cases hp : p s with
    | ok r => rw [hp] at h; exact ⟨r.1, r.2, rfl, h⟩
    | error e => rw [hp] at h; cases h
  · rintro ⟨a, t, hp, hf⟩
    rw [hp]
    exact hf

/-- The scanner succeeds exactly on what begins with a text of `R`, with its value, and leaves the rest. -/
structure Parses (p : Scan β ε α) (R : List β → α → Prop) : Prop where
  sound : ∀ s a s', p s = .ok (a, s') → ∃ xs, s.unread = xs ++ s'.unread ∧ R xs a
  complete : ∀ s xs rest a, R xs a → s.unread = xs ++ rest →
    ∃ s', p s = .ok (a, s') ∧ s'.unread = rest

namespace Parses

variable {p q : Scan β ε α} {f : α → Scan β ε γ} {R R' : List β → α → Prop}
  {S : α → List β → γ → Prop}

theorem congr (hp : Parses p R) (h : ∀ xs a, R xs a ↔ R' xs a) : Parses p R' where
  sound s a s' hs := by
    obtain ⟨xs, hxs, hR⟩ := hp.sound s a s' hs
    exact ⟨xs, hxs, (h xs a).mp hR⟩
  complete s xs rest a hR hs := hp.complete s xs rest a ((h xs a).mpr hR) hs

theorem pure (a : α) : Parses (Pure.pure a : Scan β ε α) (fun xs b => xs = [] ∧ b = a) where
  sound s b s' hs := by
    obtain ⟨rfl, rfl⟩ := Prod.mk.inj (Except.ok.inj hs)
    exact ⟨[], rfl, rfl, rfl⟩
  complete s xs rest b hR hs := by
    obtain ⟨rfl, rfl⟩ := hR
    exact ⟨s, rfl, hs⟩

theorem fail (e : ε) : Parses (Scan.fail e : Scan β ε α) (fun _ _ => False) where
  sound _ _ _ hs := nomatch hs
  complete _ _ _ _ hR _ := hR.elim

/-- What is read by one scanner and then by the next. -/
theorem bind (hp : Parses p R) (hf : ∀ a, Parses (f a) (S a)) :
    Parses (p >>= f) (fun zs c => ∃ xs a ys, zs = xs ++ ys ∧ R xs a ∧ S a ys c) where
  sound s c s' hs := by
    obtain ⟨a, t, hpa, hfc⟩ := run_bind_ok.mp hs
    obtain ⟨xs, hxs, hR⟩ := hp.sound s a t hpa
    obtain ⟨ys, hys, hS⟩ := (hf a).sound t c s' hfc
    refine ⟨xs ++ ys, ?_, xs, a, ys, rfl, hR, hS⟩
    rw [hxs, hys, List.append_assoc]
  complete s zs rest c hR hs := by
    obtain ⟨xs, a, ys, rfl, hR, hS⟩ := hR
    rw [List.append_assoc] at hs
    obtain ⟨t, hpa, ht⟩ := hp.complete s xs (ys ++ rest) a hR hs
    obtain ⟨s', hfc, hs'⟩ := (hf a).complete t ys rest c hS ht
    exact ⟨s', run_bind_ok.mpr ⟨a, t, hpa, hfc⟩, hs'⟩

theorem ite (c : Prop) [Decidable c] (hp : c → Parses p R) (hq : ¬c → Parses q R') :
    Parses (if c then p else q) (fun xs a => if c then R xs a else R' xs a) := by
  by_cases hc : c
  · simpa only [if_pos hc] using hp hc
  · simpa only [if_neg hc] using hq hc

theorem require (c : Prop) [Decidable c] (e : ε) :
    Parses (Scan.require c e : Scan β ε Unit) (fun xs _ => xs = [] ∧ c) := by
  unfold Scan.require
  refine (ite c (fun _ => pure ()) (fun _ => fail e)).congr ?_
  intro xs a
  by_cases hc : c <;> simp [hc]

/-- A check before the rest: the rest reads the whole text. -/
theorem check (c : Prop) [Decidable c] (e : ε) (hp : c → Parses p R) :
    Parses (Scan.require c e >>= fun _ => p) (fun xs a => c ∧ R xs a) := by
  by_cases hc : c
  · refine ((require c e).bind fun _ => hp hc).congr ?_
    intro zs a
    constructor
    · rintro ⟨xs, _, ys, rfl, ⟨rfl, _⟩, hR⟩
      exact ⟨hc, hR⟩
    · rintro ⟨_, hR⟩
      exact ⟨[], (), zs, rfl, ⟨rfl, hc⟩, hR⟩
  · constructor
    · intro s a s' hs
      obtain ⟨_, t, hreq, _⟩ := run_bind_ok.mp hs
      obtain ⟨_, _, _, hc'⟩ := (require c e).sound s _ t hreq
      exact absurd hc' hc
    · rintro _ _ _ _ ⟨hc', _⟩ _
      exact absurd hc' hc

/-! ### One decoding -/

/-- No text is a proper beginning of another one. -/
theorem unique (hp : Parses p R) {xs ys rest rest' : List β} {a b : α} (hx : R xs a) (hy : R ys b)
    (h : xs ++ rest = ys ++ rest') : xs = ys ∧ a = b ∧ rest = rest' := by
  obtain ⟨s, hs, hrest⟩ := hp.complete ⟨xs ++ rest, fun _ => 1⟩ xs rest a hx rfl
  obtain ⟨t, ht, hrest'⟩ := hp.complete ⟨xs ++ rest, fun _ => 1⟩ ys rest' b hy h
  obtain ⟨rfl, rfl⟩ := Prod.mk.inj (Except.ok.inj (hs.symm.trans ht))
  obtain rfl : rest = rest' := hrest.symm.trans hrest'
  exact ⟨List.append_cancel_right h, rfl, rfl⟩

/-- A concatenation of texts is one of no other texts. -/
theorem unique_list (hp : Parses p R) (hne : ∀ a, ¬R [] a) {xss yss : List (List β)} {as bs : List α}
    (hx : List.Forall₂ R xss as) (hy : List.Forall₂ R yss bs) (h : xss.flatten = yss.flatten) :
    xss = yss ∧ as = bs := by
  induction hx generalizing yss bs with
  | nil =>
    cases hy with
    | nil => exact ⟨rfl, rfl⟩
    | @cons ys b _ _ hR _ =>
      rw [List.flatten_nil, List.flatten_cons] at h
      obtain ⟨rfl, _⟩ := List.append_eq_nil_iff.mp h.symm
      exact absurd hR (hne b)
  | @cons xs a xss as hR _ ih =>
    cases hy with
    | nil =>
      rw [List.flatten_nil, List.flatten_cons] at h
      obtain ⟨rfl, _⟩ := List.append_eq_nil_iff.mp h
      exact absurd hR (hne a)
    | cons hR' hy' =>
      rw [List.flatten_cons, List.flatten_cons] at h
      obtain ⟨rfl, rfl, hrest⟩ := hp.unique hR hR' h
      obtain ⟨rfl, rfl⟩ := ih hy' hrest
      exact ⟨rfl, rfl⟩

end Parses

end Scan

/-! ### Numbers in network order -/

/-- The last `width` base-256 digits of a number, the highest first. -/
def bigEndian : Nat → Nat → List UInt8
  | 0, _ => []
  | width + 1, value => UInt8.ofNat (value / 256 ^ width) :: bigEndian width (value % 256 ^ width)

def ofBigEndian : List UInt8 → Nat
  | [] => 0
  | b :: bs => b.toNat * 256 ^ bs.length + ofBigEndian bs

@[simp] theorem bigEndian_length (width value : Nat) : (bigEndian width value).length = width := by
  induction width generalizing value with
  | zero => rfl
  | succ width ih => rw [bigEndian, List.length_cons, ih]

theorem ofBigEndian_lt (bs : List UInt8) : ofBigEndian bs < 256 ^ bs.length := by
  induction bs with
  | nil => exact Nat.one_pos
  | cons b bs ih =>
    have hb : b.toNat ≤ 255 := by have := b.toNat_lt; omega
    rw [ofBigEndian, List.length_cons, Nat.pow_succ]
    have := Nat.mul_le_mul_right (256 ^ bs.length) hb
    omega

theorem ofBigEndian_bigEndian {width value : Nat} (h : value < 256 ^ width) :
    ofBigEndian (bigEndian width value) = value := by
  induction width generalizing value with
  | zero =>
    obtain rfl : value = 0 := by simpa using h
    rfl
  | succ width ih =>
    have hdigit : value / 256 ^ width < 256 :=
      Nat.div_lt_of_lt_mul (by rwa [← Nat.pow_succ])
    have hbyte : (UInt8.ofNat (value / 256 ^ width)).toNat = value / 256 ^ width :=
      Nat.mod_eq_of_lt hdigit
    rw [bigEndian, ofBigEndian, bigEndian_length, hbyte, ih (Nat.mod_lt _ (Nat.pow_pos (by decide)))]
    exact Nat.div_add_mod' value (256 ^ width)

theorem bigEndian_ofBigEndian (bs : List UInt8) :
    bigEndian bs.length (ofBigEndian bs) = bs := by
  induction bs with
  | nil => rfl
  | cons b bs ih =>
    have hlt := ofBigEndian_lt bs
    have hdiv : (b.toNat * 256 ^ bs.length + ofBigEndian bs) / 256 ^ bs.length = b.toNat := by
      rw [Nat.mul_comm, Nat.mul_add_div (Nat.pow_pos (by decide)), Nat.div_eq_of_lt hlt, Nat.add_zero]
    have hmod : (b.toNat * 256 ^ bs.length + ofBigEndian bs) % 256 ^ bs.length = ofBigEndian bs := by
      rw [Nat.mul_comm, Nat.mul_add_mod, Nat.mod_eq_of_lt hlt]
    rw [List.length_cons, bigEndian, ofBigEndian, hdiv, hmod, ih, UInt8.ofNat_toNat]

end HermesOps.Schemes
