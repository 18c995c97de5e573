import Mathlib.Data.List.Infix

/-! Requests with bodies on one stream. A server parses a head, answers the request (which may read some of
    what follows) and goes on with the rest of the stream, unless it closes the connection. Each answer
    that leaves the connection open must have read exactly the body the request announces; then what is
    answered are the requests that were sent, in their order, whatever the bodies look like. -/

namespace HermesOps.Schemes

/-- How a request lies on the stream: the parser of its head, the length of the body it announces, and
    whether that length can be told. -/
structure Wire (β ρ : Type) where
  parse : List β → Option (ρ × List β)
  announced : ρ → Nat
  Clear : ρ → Prop

/-- What an answer does to the stream. -/
structure Fate where
  closed : Bool
  consumed : Nat

namespace Wire

variable {β ρ ε : Type} (w : Wire β ρ)

/-- The answer closes the connection, or it has read the body that is announced clearly. -/
def Keeps (r : ρ) (f : Fate) : Prop := f.closed = true ∨ (w.Clear r ∧ f.consumed = w.announced r)

variable (handle : ρ → ε → List β → Fate)

/-- The requests a server answers on a stream, each in an environment of its own. -/
def serve : List ε → List β → List (ρ × Fate)
  | [], _ => []
  | e :: es, input =>
    match w.parse input with
    | none => []
    | some (r, rest) =>
      let fate := handle r e rest
      (r, fate) :: if fate.closed then [] else serve es (rest.drop fate.consumed)

/-- A request as it is sent; a body whose length is not clear may be anything. -/
structure Message where
  head : List β
  request : ρ
  body : List β
  parses : ∀ rest, w.parse (head ++ rest) = some (request, rest)
  framed : w.Clear request → body.length = w.announced request

variable {w}

/-- The bytes of the messages. -/
def stream (ms : List w.Message) : List β := ms.flatMap fun m => m.head ++ m.body

/-- If every answer to a request that is sent keeps the framing, the requests answered are the first ones
    sent. -/
theorem serve_prefix (hend : w.parse [] = none) {ms : List w.Message}
    (hkeeps : ∀ m ∈ ms, ∀ e input, w.Keeps m.request (handle m.request e input)) (es : List ε) :
    ((w.serve handle es (stream ms)).map Prod.fst <+: ms.map Message.request) ∧
      ∀ x ∈ w.serve handle es (stream ms), w.Keeps x.1 x.2 := by
  induction ms generalizing es with
  | nil =>
    cases es with
    | nil => exact ⟨List.prefix_rfl, by simp [serve]⟩
    | cons e es =>
      have hserve : w.serve handle (e :: es) (stream ([] : List w.Message)) = [] := by
        rw [serve, show stream ([] : List w.Message) = [] from rfl, hend]
      rw [hserve]
      exact ⟨List.prefix_rfl, by simp⟩
  | cons m ms ih =>
    cases es with
    | nil => exact ⟨List.nil_prefix, by simp [serve]⟩
    | cons e es =>
      rw [List.forall_mem_cons] at hkeeps
      have hstream : stream (m :: ms) = m.head ++ (m.body ++ stream ms) := by
        rw [stream, List.flatMap_cons, List.append_assoc]
        rfl
      rw [serve, hstream, m.parses]
      dsimp only
      have hkeep := hkeeps.1 e (m.body ++ stream ms)
      cases hclosed : (handle m.request e (m.body ++ stream ms)).closed with
      | true =>
        simp only [if_true, List.map_cons, List.map_nil, List.forall_mem_cons]
        exact ⟨by simp, hkeep, by simp⟩
      | false =>
        -- the body was read, so the rest is the stream of the other messages
        obtain ⟨hclear, hconsumed⟩ := hkeep.resolve_left (by rw [hclosed]; exact Bool.false_ne_true)
        have hrest : (m.body ++ stream ms).drop (handle m.request e (m.body ++ stream ms)).consumed =
            stream ms := by
          rw [hconsumed, ← m.framed hclear, List.drop_left]
        obtain ⟨hhead, hall⟩ := ih hkeeps.2 es
        rw [hrest, if_neg Bool.false_ne_true]
        simp only [List.map_cons, List.forall_mem_cons, List.cons_prefix_cons, true_and]
        exact ⟨hhead, hkeep, hall⟩

end Wire

end HermesOps.Schemes
