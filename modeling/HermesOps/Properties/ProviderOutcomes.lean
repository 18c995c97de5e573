import HermesOps.ModelProvider.Adapter
import HermesOps.Schemes.Decimal

/-! The outcomes of `OpenAICompatibleProvider.generate`. Every request, every behaviour of the transport and
    every body falls in one row of the documented table, and the exception that is raised then has no
    context, unless a test of the adapter or `json.loads` raises what no clause catches. -/

namespace HermesOps.ModelProvider

open Schemes Reviewer Schemes.Raising

/-! ### The size of a request -/

section Sizes

open Controller (escape quote)

variable {maximum : Nat}

theorem escape_size (c : Char) : 1 ≤ (escape c).utf8ByteSize := by
  have hchar : 1 ≤ c.toString.utf8ByteSize := by
    rw [Char.toString_eq_singleton, String.utf8ByteSize_singleton]
    exact Char.utf8Size_pos c
  have hunicode : ∀ s : String, 1 ≤ ("\\u00" ++ s).utf8ByteSize := by
    intro s
    rw [String.utf8ByteSize_append]
    exact Nat.le_add_right_of_le (by decide)
  unfold escape
  repeat' split
  all_goals first | exact hchar | exact hunicode _ | decide

theorem join_size (cs : List Char) : cs.length ≤ (String.join (cs.map escape)).utf8ByteSize := by
  induction cs with
  | nil => exact Nat.zero_le _
  | cons c cs ih =>
    have hc := escape_size c
    rw [List.map_cons, String.join_cons, String.utf8ByteSize_append, List.length_cons]
    omega

theorem quote_size (s : String) : s.length + 2 ≤ (quote s).utf8ByteSize := by
  have hjoin := join_size s.toList
  have hmark : "\"".utf8ByteSize = 1 := by decide
  unfold quote
  rw [String.utf8ByteSize_append, String.utf8ByteSize_append, hmark]
  rw [String.length_toList] at hjoin
  omega

/-- What a message counts in `_minimum_request_size`, without its comma. -/
def messageBound (message : ModelMessage) : Nat :=
  emptyMessageSize + message.role.value.length + message.content.length

theorem messageText_size (message : ModelMessage) :
    messageBound message ≤ (messageText message).utf8ByteSize := by
  have hrole := quote_size message.role.value
  have hcontent := quote_size message.content
  have hempty : emptyMessageSize = 24 := by decide
  have h₁ : "\x7b\"role\":".utf8ByteSize = 8 := by decide
  have h₂ : ",\"content\":".utf8ByteSize = 11 := by decide
  have h₃ : "\x7d".utf8ByteSize = 1 := by decide
  unfold messageBound messageText
  simp only [String.utf8ByteSize_append, h₁, h₂, h₃]
  omega

/-- What the messages count from an index on. -/
def messagesBound : Nat → List ModelMessage → Nat
  | _, [] => 0
  | index, message :: messages =>
    messageBound message + (if index = 0 then 0 else 1) + messagesBound (index + 1) messages

theorem minimumSizeFrom_le (index size : Nat) (messages : List ModelMessage) :
    minimumSizeFrom maximum index size messages ≤ size + messagesBound index messages := by
  induction messages generalizing index size with
  | nil => exact Nat.le_add_right _ _
  | cons message messages ih =>
    unfold minimumSizeFrom messagesBound messageBound
    dsimp only
    generalize emptyMessageSize + message.role.value.length + message.content.length +
      (if index = 0 then 0 else 1) = bound
    split
    · omega
    · refine (ih _ _).trans ?_
      omega

theorem intercalate_size (index : Nat) (message : ModelMessage) (messages : List ModelMessage) :
    messageBound message + messagesBound (index + 1) messages ≤
      (",".intercalate (messageText message :: messages.map messageText)).utf8ByteSize := by
  induction messages generalizing index message with
  | nil =>
    rw [List.map_nil, String.intercalate_singleton]
    exact messageText_size message
  | cons next messages ih =>
    have hfirst := messageText_size message
    have hrest := ih (index + 1) next
    have hcomma : ",".utf8ByteSize = 1 := by decide
    rw [List.map_cons, String.intercalate_cons_cons, String.utf8ByteSize_append,
      String.utf8ByteSize_append, hcomma]
    unfold messagesBound
    rw [if_neg (Nat.succ_ne_zero index)]
    omega

/-- The lower bound on the size of a request never refuses a request that fits. -/
theorem minimumRequestSize_le (request : ModelRequest) (maximum : Nat) :
    minimumRequestSize request maximum ≤ (payloadText request).utf8ByteSize := by
  obtain ⟨message, messages, hmessages⟩ := List.exists_cons_of_ne_nil request.nonempty
  have hmodel := quote_size request.model
  have hitems := intercalate_size 0 message messages
  have hempty : emptyRequestSize = 26 := by decide
  have h₁ : "\x7b\"model\":".utf8ByteSize = 9 := by decide
  have h₂ : ",\"messages\":[".utf8ByteSize = 13 := by decide
  have h₃ : "]\x7d".utf8ByteSize = 2 := by decide
  unfold minimumRequestSize payloadText
  refine (minimumSizeFrom_le _ _ _).trans ?_
  rw [hmessages, List.map_cons]
  unfold messagesBound
  simp only [String.utf8ByteSize_append, h₁, h₂, h₃, if_true]
  omega

end Sizes

/-! ### The declared length -/

/-- A declared length is a numeral of at most the limit. -/
def LengthWithin (maximum : Nat) : Option String → Prop
  | none => True
  | some text => text.toList ≠ [] ∧ Decimal.Digits text.toList ∧ Decimal.value text.toList ≤ maximum

section Length

theorem any_not_digit {cs : List Char} : (cs.any fun c => c < '0' ∨ '9' < c) = true ↔ ¬Decimal.Digits cs := by
  rw [List.any_eq_true]
  unfold Decimal.Digits
  push Not
  refine exists_congr fun c => and_congr_right fun _ => ?_
  rw [decide_eq_true_iff, Char.isDigit, ne_eq, Bool.and_eq_true, decide_eq_true_iff, decide_eq_true_iff,
    not_and_or]
  exact or_congr UInt32.not_le.symm UInt32.not_le.symm

theorem integerText_of_le {n : Nat} (h : (toString n).length ≤ maxStrDigits) :
    integerText n = .ok (toString n) := if_neg (Nat.not_lt.mpr h)

theorem bounded_iff (rawLength : Option String) {maximum : Nat} (hshort : (toString maximum).length ≤ maxStrDigits) :
    boundedContentLengthValue rawLength maximum = .ok () ∧ LengthWithin maximum rawLength ∨
      boundedContentLengthValue rawLength maximum = raise .responseTooLarge ∧
        ¬LengthWithin maximum rawLength := by
  cases rawLength with
  | none => exact .inl ⟨rfl, trivial⟩
  | some text =>
    unfold boundedContentLengthValue LengthWithin
    dsimp only
    by_cases hform : text.toList = [] ∨ text.toList.any (fun c => c < '0' ∨ '9' < c) = true
    · rw [if_pos hform]
      refine .inr ⟨rfl, ?_⟩
      rintro ⟨hne, hdigits, -⟩
      rcases hform with h | h
      · exact hne h
      · exact any_not_digit.mp h hdigits
    · rw [if_neg hform, integerText_of_le hshort, ok_bind]
      push Not at hform
      obtain ⟨hne, hany⟩ := hform
      have hdigits : Decimal.Digits text.toList := not_not.mp (mt any_not_digit.mpr hany)
      have hdropped : Decimal.Digits (Decimal.significant text.toList) :=
        Decimal.significant_digits hdigits
      have horder := Decimal.canonical_lt_iff (Decimal.toDigits_digits maximum) hdropped
        (Decimal.toDigits_canonical maximum) Decimal.significant_canonical
      rw [Decimal.value_toDigits, Decimal.value_significant] at horder
      unfold Decimal.significant at horder
      have hmaximum : (toString maximum).toList = Nat.toDigits 10 maximum := Nat.toList_repr
      rw [hmaximum]
      by_cases hlarge : maximum < Decimal.value text.toList
      · rw [if_pos (horder.mpr hlarge)]
        refine .inr ⟨rfl, ?_⟩
        rintro ⟨-, -, hle⟩
        omega
      · rw [if_neg (mt horder.mp hlarge)]
        exact .inl ⟨rfl, hne, hdigits, Nat.not_lt.mp hlarge⟩

/-- The adapter's ceiling is far below the integers that `str` refuses. -/
theorem ceiling_short (config : Config) : (toString config.maxResponseBytes).length ≤ maxStrDigits := by
  have hceiling : config.maxResponseBytes < 10 ^ 7 := config.responseCeiling.trans_lt (by decide)
  have hlength := (Nat.length_repr_le_iff (by decide)).mpr hceiling
  exact hlength.trans (by decide)

end Length

/-! ### What a transport returned -/

/-- The headers declare a length, or none. -/
def Headers.Declares (headers : Headers) : Option String → Prop
  | none => headers.get "Content-Length" = .ok .absent ∧ headers.get "content-length" = .ok .absent
  | some text => headers.get "Content-Length" = .ok (.text text) ∨
      headers.get "Content-Length" = .ok .absent ∧ headers.get "content-length" = .ok (.text text)

/-- The value is a response of the documented shape. -/
inductive Carries : Returned → Response → Prop
  | unsized (status : Int) (body : ByteArray) :
      Carries (.response (some status) (some body) .absent) ⟨status, body, none⟩
  | sized (status : Int) (body : ByteArray) (text : String) :
      Carries (.response (some status) (some body) (.text text)) ⟨status, body, some text⟩
  | triple {headers : Headers} {contentLength : Option String} (status : Int) (body : ByteArray)
      (hmapping : headers.isMapping = .ok true) (hlength : headers.Declares contentLength) :
      Carries (.triple (some status) headers (some body)) ⟨status, body, contentLength⟩

/-- `isinstance(result[1], Mapping)` raises. -/
inductive MappingRaises : Returned → Exn → Prop
  | triple {headers : Headers} {e : Exn} (status : Int) (body : Option ByteArray)
      (h : headers.isMapping = .error e) : MappingRaises (.triple (some status) headers body) e

section Returned

variable {headers : Headers} {returned : Returned}

theorem mappingContentLength_cases (headers : Headers) :
    (∃ value, mappingContentLength headers = .ok value ∧
        (headers.get "Content-Length" = .ok value ∧ value ≠ .absent ∨
          headers.get "Content-Length" = .ok .absent ∧ headers.get "content-length" = .ok value)) ∨
      ∃ context, mappingContentLength headers = .error ⟨.responseTooLarge, context⟩ ∧
        ∀ contentLength, ¬headers.Declares contentLength := by
  unfold mappingContentLength
  cases hfirst : headers.get "Content-Length" with
  | error e =>
    refine .inr ⟨some e, rfl, ?_⟩
    intro contentLength h
    cases contentLength <;> simp [Headers.Declares, hfirst] at h
  | ok value =>
    by_cases habsent : value = .absent
    · subst habsent
      cases hsecond : headers.get "content-length" with
      | error e =>
        refine .inr ⟨some e, rfl, ?_⟩
        intro contentLength h
        cases contentLength <;> simp [Headers.Declares, hfirst, hsecond] at h
      | ok value => exact .inl ⟨value, rfl, .inr ⟨rfl, rfl⟩⟩
    · refine .inl ⟨value, ?_, .inl ⟨rfl, habsent⟩⟩
      simp [lift, Except.mapError, bind, Except.bind, habsent, attempt, pure, Except.pure]

theorem declares_iff {value : HeaderValue} {contentLength : Option String}
    (h : headers.get "Content-Length" = .ok value ∧ value ≠ .absent ∨
      headers.get "Content-Length" = .ok .absent ∧ headers.get "content-length" = .ok value) :
    headers.Declares contentLength ↔
      value = (match contentLength with | none => .absent | some text => .text text) := by
  rcases h with ⟨hfirst, hne⟩ | ⟨hfirst, hsecond⟩
  · cases contentLength with
    | none => simp [Headers.Declares, hfirst, hne]
    | some text => simp [Headers.Declares, hfirst, hne]
  · cases contentLength with
    | none => simp [Headers.Declares, hfirst, hsecond]
    | some text => simp [Headers.Declares, hfirst, hsecond]

theorem normalizeTransportResult_cases (returned : Returned) :
    (∃ response, Carries returned response ∧ normalizeTransportResult returned = .ok (some response)) ∨
      (∀ response, ¬Carries returned response) ∧
        (normalizeTransportResult returned = .ok none ∨
          ∃ e, MappingRaises returned e ∧ normalizeTransportResult returned = raise e) := by
  cases returned with
  | other => exact .inr ⟨by rintro _ ⟨⟩, .inl rfl⟩
  | response status body contentLength =>
    cases status with
    | none => exact .inr ⟨by rintro _ ⟨⟩, .inl rfl⟩
    | some status =>
      cases body with
      | none => exact .inr ⟨by rintro _ ⟨⟩, .inl rfl⟩
      | some body =>
        cases contentLength with
        | absent => exact .inl ⟨_, .unsized status body, rfl⟩
        | text text => exact .inl ⟨_, .sized status body text, rfl⟩
        | other => exact .inr ⟨by rintro _ ⟨⟩, .inl rfl⟩
  | triple status headers body =>
    cases status with
    | none => exact .inr ⟨by rintro _ ⟨⟩, .inl rfl⟩
    | some status =>
      cases hmapping : headers.isMapping with
      | error e =>
        refine .inr ⟨?_, .inr ⟨e, .triple status body hmapping, ?_⟩⟩
        · rintro _ ⟨⟩
          rename_i h _
          rw [hmapping] at h
          cases h
        · simp [normalizeTransportResult, hmapping, lift, Except.mapError, bind, Except.bind, raise]
      | ok mapping =>
        cases mapping with
        | false =>
          refine .inr ⟨?_, .inl ?_⟩
          · rintro _ ⟨⟩
            rename_i h _
            rw [hmapping] at h
            cases h
          · simp [normalizeTransportResult, hmapping, lift, Except.mapError, bind, Except.bind, pure,
              Except.pure]
        | true =>
          cases body with
          | none =>
            refine .inr ⟨by rintro _ ⟨⟩, .inl ?_⟩
            simp [normalizeTransportResult, hmapping, lift, Except.mapError, bind, Except.bind, pure,
              Except.pure]
          | some body =>
            rcases mappingContentLength_cases headers with
              ⟨value, hvalue, hget⟩ | ⟨context, herror, hnone⟩
            · have hresult : normalizeTransportResult (.triple (some status) headers (some body)) =
                  .ok (checkedResponse (some status) (some body) value) := by
                simp [normalizeTransportResult, hmapping, lift, Except.mapError, bind, Except.bind, hvalue,
                  attempt, pure, Except.pure]
              rw [hresult]
              cases value with
              | absent => exact .inl ⟨_, .triple status body hmapping ((declares_iff hget).mpr rfl), rfl⟩
              | text text =>
                have hdeclares : headers.Declares (some text) := (declares_iff hget).mpr rfl
                exact .inl ⟨_, .triple status body hmapping hdeclares, rfl⟩
              | other =>
                refine .inr ⟨?_, .inl rfl⟩
                rintro _ ⟨⟩
                rename_i contentLength _ hdeclares
                have hvalue := (declares_iff hget).mp hdeclares
                cases contentLength <;> cases hvalue
            · refine .inr ⟨?_, .inl ?_⟩
              · rintro _ ⟨⟩
                rename_i hdeclares
                exact hnone _ hdeclares
              · simp [normalizeTransportResult, hmapping, lift, Except.mapError, bind, Except.bind, herror,
                  attempt, pure, Except.pure]

theorem Headers.Declares.unique {a b : Option String} (ha : headers.Declares a) (hb : headers.Declares b) :
    a = b := by
  cases a with
  | none => cases b <;> simp_all [Headers.Declares]
  | some a =>
    cases b with
    | none => simp_all [Headers.Declares]
    | some b =>
      rcases ha with ha | ⟨ha, ha'⟩ <;> rcases hb with hb | ⟨hb, hb'⟩ <;> simp_all

theorem Carries.unique {a b : Response} (ha : Carries returned a) (hb : Carries returned b) : a = b := by
  cases ha with
  | unsized status body =>
    cases hb
    rfl
  | sized status body text =>
    cases hb
    rfl
  | triple status body hmapping hlength =>
    cases hb with
    | triple _ _ _ hlength' => rw [hlength.unique hlength']

theorem Carries.mapping {response : Response} {e : Exn} (h : Carries returned response) :
    ¬MappingRaises returned e := by
  intro hraises
  cases hraises with
  | triple status body herror =>
    cases h with
    | triple _ _ hmapping _ =>
      rw [herror] at hmapping
      cases hmapping

end Returned

/-! ### What a body says -/

/-- `document["choices"][0]["message"]["content"]` is the string. -/
inductive Content : Document → PyText → Prop
  | mk {document choice message : List (PyText × Document)} {rest : List Document} {text : PyText}
      (hchoices : Document.member document "choices" = some (.arr (.obj choice :: rest)))
      (hmessage : Document.member choice "message" = some (.obj message))
      (hcontent : Document.member message "content" = some (.str text)) : Content (.obj document) text

/-- The body is UTF-8 JSON whose content is the string, which has no surrogates. -/
def Says (loads : Loads) (body : ByteArray) (text : PyText) : Prop :=
  ∃ decoded document, String.fromUTF8? body = some decoded ∧ loads decoded = .ok document ∧
    Content document text ∧ isStorable text = true

section Body

variable {loads : Loads} {document : Document} {text : PyText} {body : ByteArray}

theorem messageContent_cases (document : Document) :
    (∃ text, Content document text ∧ messageContent document = .ok text) ∨
      (∀ text, ¬Content document text) ∧ messageContent document = raise structureInvalid := by
  unfold messageContent
  split
  · rename_i members
    split
    · rename_i choice rest hchoices
      split
      · rename_i message hmessage
        split
        · rename_i text hcontent
          exact .inl ⟨text, ⟨hchoices, hmessage, hcontent⟩, rfl⟩
        · rename_i hnone
          refine .inr ⟨?_, rfl⟩
          rintro text ⟨hc, hm, ht⟩
          rw [hchoices] at hc
          cases hc
          rw [hmessage] at hm
          cases hm
          exact hnone text ht
      · rename_i hnone
        refine .inr ⟨?_, rfl⟩
        rintro text ⟨hc, hm, ht⟩
        rw [hchoices] at hc
        cases hc
        exact hnone _ hm
    · rename_i hnone
      refine .inr ⟨?_, rfl⟩
      rintro text ⟨hc, hm, ht⟩
      exact hnone _ _ hc
  · rename_i hnone
    refine .inr ⟨?_, rfl⟩
    rintro text ⟨hc, hm, ht⟩
    exact hnone _ rfl

theorem Content.unique {a b : PyText} (ha : Content document a) (hb : Content document b) : a = b := by
  obtain ⟨hc, hm, ht⟩ := ha
  obtain ⟨hc', hm', ht'⟩ := hb
  rw [hc] at hc'
  cases hc'
  rw [hm] at hm'
  cases hm'
  rw [ht] at ht'
  cases ht'
  rfl

theorem Says.unique {a b : PyText} (ha : Says loads body a) (hb : Says loads body b) : a = b := by
  obtain ⟨decoded, document, hdecoded, hloads, ha, -⟩ := ha
  obtain ⟨decoded', document', hdecoded', hloads', hb, -⟩ := hb
  rw [hdecoded] at hdecoded'
  cases hdecoded'
  rw [hloads] at hloads'
  cases hloads'
  exact ha.unique hb

/-- The body is UTF-8, and `json.loads` raises the error. -/
def LoadsRaises (loads : Loads) (body : ByteArray) (e : LoadsError) : Prop :=
  ∃ decoded, String.fromUTF8? body = some decoded ∧ loads decoded = .error e

theorem parseBody_cases (loads : Loads) (body : ByteArray) :
    (∃ decoded document, String.fromUTF8? body = some decoded ∧ loads decoded = .ok document ∧
        normalize (parseBody loads body) parseHandler = .ok document) ∨
      (∀ text, ¬Says loads body text) ∧
        (¬LoadsRaises loads body .valueError ∧
            normalize (parseBody loads body) parseHandler = raise invalidJson ∨
          LoadsRaises loads body .valueError ∧
            normalize (parseBody loads body) parseHandler = raise .valueError) := by
  unfold parseBody
  cases hdecoded : String.fromUTF8? body with
  | none =>
    refine .inr ⟨?_, .inl ⟨?_, normalize_noted rfl⟩⟩
    · rintro text ⟨decoded, document, h, -⟩
      rw [hdecoded] at h
      cases h
    · rintro ⟨decoded, h, -⟩
      rw [hdecoded] at h
      cases h
  | some decoded =>
    dsimp only
    cases hloads : loads decoded with
    | ok document => exact .inl ⟨decoded, document, rfl, hloads, rfl⟩
    | error e =>
      refine .inr ⟨?_, ?_⟩
      · rintro text ⟨decoded', document, h, hok, -⟩
        rw [hdecoded] at h
        cases h
        rw [hloads] at hok
        cases hok
      · have hraises : ∀ e', LoadsRaises loads body e' → e = e' := by
          rintro e' ⟨decoded', h, herror⟩
          rw [hdecoded] at h
          cases h
          rw [hloads] at herror
          exact Except.error.inj herror
        cases e with
        | jsonDecodeError => exact .inl ⟨fun h => (nomatch hraises _ h), normalize_noted rfl⟩
        | recursionError => exact .inl ⟨fun h => (nomatch hraises _ h), normalize_noted rfl⟩
        | valueError => exact .inr ⟨⟨decoded, hdecoded, hloads⟩, normalize_uncaught rfl⟩

end Body

/-! ### The table -/

section Table

variable (config : Config) (transport : Transport) (loads : Loads) (request : ModelRequest)

/-- The request fits its limit. -/
def Fits : Prop := (payloadText request).utf8ByteSize ≤ config.maxRequestBytes

/-- What the transport does with the request. -/
def sent : Raising Exn Returned :=
  transport (httpRequest config request) request.timeoutSeconds config.maxResponseBytes

/-- The transport returned the response. -/
def Responds (response : Response) : Prop :=
  ∃ returned, sent config transport request = .ok returned ∧ Carries returned response

/-- The response is within its limits. -/
def WithinLimits (response : Response) : Prop :=
  LengthWithin config.maxResponseBytes response.contentLength ∧
    response.body.size ≤ config.maxResponseBytes

/-- The string is what the provider answered. -/
def Delivers (text : PyText) : Prop :=
  Fits config request ∧ ∃ response, Responds config transport request response ∧ response.status = 200 ∧
    WithinLimits config response ∧ Says loads response.body text

/-- A timeout, also one that `URLError` wraps. -/
def TimedOut (e : Exn) : Prop := e = .timeoutError ∨ e = .urlError (.ok true)

/-- Another `OSError`. -/
def OsFailure (e : Exn) : Prop := e = .osError ∨ ∃ timedOut, e = .urlError timedOut ∧ timedOut ≠ .ok true

/-- The kind of error that the documented table gives. -/
inductive Documented : ErrorKind → Prop
  | oversized (h : ¬Fits config request) : Documented .requestRejected
  | timeout {r : Raise Exn} (hfits : Fits config request) (h : sent config transport request = .error r)
      (htimeout : TimedOut r.exn) : Documented .timeout
  | unavailable {r : Raise Exn} (hfits : Fits config request)
      (h : sent config transport request = .error r) (hos : OsFailure r.exn) : Documented .unavailable
  | oversizedBody {r : Raise Exn} (hfits : Fits config request)
      (h : sent config transport request = .error r) (hlarge : r.exn = .responseTooLarge) :
      Documented .invalidResponse
  | transport {r : Raise Exn} (hfits : Fits config request)
      (h : sent config transport request = .error r) (htimeout : ¬TimedOut r.exn) (hos : ¬OsFailure r.exn)
      (hlarge : r.exn ≠ .responseTooLarge) : Documented .providerFailed
  | value {returned : Returned} (hfits : Fits config request)
      (h : sent config transport request = .ok returned) (hshape : ∀ response, ¬Carries returned response) :
      Documented .providerFailed
  | redirect {response : Response} (hfits : Fits config request)
      (h : Responds config transport request response)
      (hstatus : 300 ≤ response.status ∧ response.status < 400) : Documented .providerFailed
  | client {response : Response} (hfits : Fits config request)
      (h : Responds config transport request response)
      (hstatus : 400 ≤ response.status ∧ response.status < 500) : Documented .requestRejected
  | server {response : Response} (hfits : Fits config request)
      (h : Responds config transport request response)
      (hstatus : 500 ≤ response.status ∧ response.status < 600) : Documented .providerFailed
  | status {response : Response} (hfits : Fits config request)
      (h : Responds config transport request response)
      (hstatus : response.status < 300 ∨ 600 ≤ response.status) (hok : response.status ≠ 200) :
      Documented .invalidResponse
  | body {response : Response} (hfits : Fits config request)
      (h : Responds config transport request response) (hstatus : response.status = 200)
      (hnone : ∀ text, ¬Delivers config transport loads request text) : Documented .invalidResponse

/-- What no clause catches. -/
inductive Escapes : Raise Exn → Prop
  | reason {r : Raise Exn} {e : Exn} (hfits : Fits config request)
      (h : sent config transport request = .error r) (hreason : r.exn = .urlError (.error e)) :
      Escapes ⟨e, some r.exn⟩
  | mapping {returned : Returned} {e : Exn} (hfits : Fits config request)
      (h : sent config transport request = .ok returned) (hmapping : MappingRaises returned e)
      (hforeign : ∀ message, e ≠ .provider .providerFailed message) : Escapes ⟨e, none⟩
  | integer {response : Response} (hfits : Fits config request)
      (h : Responds config transport request response) (hstatus : response.status = 200)
      (hlimits : WithinLimits config response) (hloads : LoadsRaises loads response.body .valueError) :
      Escapes ⟨.valueError, none⟩

/-- Every outcome is normalized. -/
structure Normalized : Prop where
  result : ∀ text, generate config transport loads request = .ok text ↔
    Delivers config transport loads request text
  error : ∀ r, generate config transport loads request = .error r → r.context = none ∧
    ∃ kind message, r.exn = .provider kind message ∧
      ∀ row, Documented config transport loads request row ↔ row = kind

end Table

section Generate

variable {config : Config} {transport : Transport} {loads : Loads} {request : ModelRequest}
  {response : Response}

theorem Responds.unique {a b : Response} (ha : Responds config transport request a)
    (hb : Responds config transport request b) : a = b := by
  obtain ⟨returned, hsent, ha⟩ := ha
  obtain ⟨returned', hsent', hb⟩ := hb
  rw [hsent] at hsent'
  cases hsent'
  exact ha.unique hb

theorem Delivers.unique {a b : PyText} (ha : Delivers config transport loads request a)
    (hb : Delivers config transport loads request b) : a = b := by
  obtain ⟨-, response, hresponds, -, -, ha⟩ := ha
  obtain ⟨-, response', hresponds', -, -, hb⟩ := hb
  rw [hresponds.unique hresponds'] at ha
  exact ha.unique hb

theorem encode_cases (text : PyText) :
    isStorable text = true ∧ normalize (encodeText text) encodeHandler = .ok () ∨
      isStorable text = false ∧ normalize (encodeText text) encodeHandler = raise structureInvalid := by
  unfold encodeText
  cases isStorable text with
  | true => exact .inl ⟨rfl, rfl⟩
  | false => exact .inr ⟨rfl, normalize_noted rfl⟩

/-- A response with status 200 is read, or refused, or an integer in it is too long. -/
theorem readResponse_cases (config : Config) (loads : Loads) (response : Response) :
    (∃ text, WithinLimits config response ∧ Says loads response.body text ∧
        readResponse config loads response = .ok text) ∨
      (∀ text, WithinLimits config response → ¬Says loads response.body text) ∧
        ((∃ message, readResponse config loads response = raise (.provider .invalidResponse message)) ∧
            ¬(WithinLimits config response ∧ LoadsRaises loads response.body .valueError) ∨
          WithinLimits config response ∧ LoadsRaises loads response.body .valueError ∧
            readResponse config loads response = raise .valueError) := by
  unfold readResponse WithinLimits
  have hbounded := bounded_iff response.contentLength (ceiling_short config)
  rcases hbounded with ⟨hlength, hwithin⟩ | ⟨hlength, hlarge⟩
  · rw [hlength, normalize_ok, ok_bind]
    by_cases hsize : response.body.size > config.maxResponseBytes
    · have hnot : ¬response.body.size ≤ config.maxResponseBytes := by omega
      rw [if_pos hsize, raise_bind]
      exact .inr ⟨fun text h => absurd h.2 hnot, .inl ⟨⟨_, rfl⟩, fun h => hnot h.1.2⟩⟩
    · have hlimits : LengthWithin config.maxResponseBytes response.contentLength ∧
          response.body.size ≤ config.maxResponseBytes := ⟨hwithin, by omega⟩
      rw [if_neg hsize]
      rcases parseBody_cases loads response.body with
        ⟨decoded, document, hdecoded, hloads, hparse⟩ | ⟨hnone, ⟨hvalue, hparse⟩ | ⟨hvalue, hparse⟩⟩
      · have hno : ¬LoadsRaises loads response.body .valueError := by
          rintro ⟨decoded', h, herror⟩
          rw [hdecoded] at h
          cases h
          rw [hloads] at herror
          cases herror
        simp only [hparse, ok_bind]
        rcases messageContent_cases document with ⟨text, hcontent, hmessage⟩ | ⟨hnone, hmessage⟩
        · rw [hmessage, ok_bind]
          rcases encode_cases text with ⟨hstorable, hencode⟩ | ⟨hstorable, hencode⟩
          · rw [hencode, ok_bind]
            exact .inl ⟨text, hlimits, ⟨decoded, document, hdecoded, hloads, hcontent, hstorable⟩, rfl⟩
          · rw [hencode, raise_bind]
            refine .inr ⟨?_, .inl ⟨⟨_, rfl⟩, fun h => hno h.2⟩⟩
            rintro text' - ⟨decoded', document', h, hok, hcontent', hstorable'⟩
            rw [hdecoded] at h
            cases h
            rw [hloads] at hok
            cases hok
            rw [hcontent.unique hcontent', hstorable'] at hstorable
            cases hstorable
        · rw [hmessage, raise_bind]
          refine .inr ⟨?_, .inl ⟨⟨_, rfl⟩, fun h => hno h.2⟩⟩
          rintro text - ⟨decoded', document', h, hok, hcontent, -⟩
          rw [hdecoded] at h
          cases h
          rw [hloads] at hok
          cases hok
          exact hnone text hcontent
      · simp only [hparse, raise_bind]
        exact .inr ⟨fun text _ => hnone text, .inl ⟨⟨_, rfl⟩, fun h => hvalue h.2⟩⟩
      · simp only [hparse, raise_bind]
        exact .inr ⟨fun text _ => hnone text, .inr ⟨hlimits, hvalue, trivial⟩⟩
  · have hnormal : normalize (boundedContentLengthValue response.contentLength config.maxResponseBytes)
        lengthHandler = raise responseLimit := by
      rw [hlength]
      exact normalize_noted rfl
    rw [hnormal, raise_bind]
    exact .inr ⟨fun text h => absurd h.1 hlarge, .inl ⟨⟨_, rfl⟩, fun h => hlarge h.1.1⟩⟩

theorem payload_size : (httpRequest config request).data.size = (payloadText request).utf8ByteSize := rfl

theorem generate_of_fits (hfits : Fits config request) : generate config transport loads request =
    normalize (sent config transport request) transportHandler >>= readResult config loads := by
  have hminimum := minimumRequestSize_le request config.maxRequestBytes
  have hsize : ¬(httpRequest config request).data.size > config.maxRequestBytes := by
    rw [payload_size]
    exact Nat.not_lt.mpr hfits
  unfold Fits at hfits
  unfold generate
  rw [if_neg (by omega)]
  dsimp only
  rw [if_neg hsize]
  rfl

theorem generate_of_oversized (h : ¬Fits config request) :
    generate config transport loads request = raise requestLimit := by
  have hsize : (httpRequest config request).data.size > config.maxRequestBytes := by
    rw [payload_size]
    exact Nat.not_le.mp h
  unfold generate
  split
  · rfl
  · dsimp only
    rw [if_pos hsize]
    rfl

theorem generate_of_returned {returned : Returned} (hfits : Fits config request)
    (h : sent config transport request = .ok returned) :
    generate config transport loads request = readResult config loads returned := by
  rw [generate_of_fits hfits, h, normalize_ok, ok_bind]

theorem generate_of_raised {r : Raise Exn} {kind : ErrorKind} {message : String}
    (hfits : Fits config request) (h : sent config transport request = .error r)
    (hnoted : transportHandler r.exn = some (.ok (.provider kind message))) :
    generate config transport loads request = raise (.provider kind message) := by
  rw [generate_of_fits hfits, h, normalize_noted hnoted, raise_bind]

/-- What a response leads to. -/
theorem generate_of_responds (hfits : Fits config request)
    (h : Responds config transport request response) : generate config transport loads request =
      match statusError response.status with
      | some e => raise e
      | none => readResponse config loads response := by
  obtain ⟨returned, hsent, hcarries⟩ := h
  rw [generate_of_returned hfits hsent]
  unfold readResult
  rcases normalizeTransportResult_cases returned with ⟨response', hcarries', hnormal⟩ | ⟨hnone, -⟩
  · rw [hnormal, hcarries.unique hcarries']
    rfl
  · exact absurd hcarries (hnone response)

theorem Escapes.raises {r : Raise Exn} (h : Escapes config transport loads request r) :
    generate config transport loads request = .error r := by
  cases h with
  | reason hfits hsent hreason =>
    rename_i r e
    have hraised : transportHandler r.exn = some (.error ⟨e, none⟩) := by
      rw [hreason]
      rfl
    rw [generate_of_fits hfits, hsent, normalize_raised hraised]
    rfl
  | mapping hfits hsent hmapping hforeign =>
    rename_i returned e
    rw [generate_of_returned hfits hsent]
    unfold readResult
    cases hmapping with
    | triple status body herror =>
      simp [normalizeTransportResult, herror, lift, Except.mapError, bind, Except.bind]
  | integer hfits hresponds hstatus hlimits hloads =>
    rename_i response
    rw [generate_of_responds hfits hresponds, hstatus]
    obtain ⟨decoded, hdecoded, herror⟩ := hloads
    rcases readResponse_cases config loads response with
      ⟨text, -, ⟨decoded', document, h, hok, -⟩, -⟩ | ⟨-, ⟨-, hno⟩ | ⟨-, -, hread⟩⟩
    · rw [hdecoded] at h
      cases h
      rw [herror] at hok
      cases hok
    · exact absurd ⟨hlimits, decoded, hdecoded, herror⟩ hno
    · exact hread

theorem Delivers.returns {text : PyText} (h : Delivers config transport loads request text) :
    generate config transport loads request = .ok text := by
  obtain ⟨hfits, response, hresponds, hstatus, hlimits, htold⟩ := h
  rw [generate_of_responds hfits hresponds, hstatus]
  rcases readResponse_cases config loads response with ⟨text', -, htold', hread⟩ | ⟨hnone, -⟩
  · rw [htold.unique htold']
    exact hread
  · exact absurd htold (hnone text hlimits)

/-- Every row of the table is what happens, unless something escapes. -/
theorem Documented.raises {row : ErrorKind} (h : Documented config transport loads request row)
    (hescapes : ∀ r, ¬Escapes config transport loads request r) :
    ∃ message, generate config transport loads request = raise (.provider row message) := by
  cases h with
  | oversized hlarge => exact ⟨_, generate_of_oversized hlarge⟩
  | @timeout r hfits hsent htimeout =>
    refine ⟨"Model provider request timed out", generate_of_raised hfits hsent ?_⟩
    rcases htimeout with h | h <;> rw [h] <;> rfl
  | @unavailable r hfits hsent hos =>
    refine ⟨"Model provider is unavailable", generate_of_raised hfits hsent ?_⟩
    rcases hos with h | ⟨timedOut, h, hne⟩
    · rw [h]
      rfl
    · cases timedOut with
      | error e => exact absurd (.reason hfits hsent h) (hescapes _)
      | ok timedOut =>
        cases timedOut with
        | true => exact absurd rfl hne
        | false =>
          rw [h]
          rfl
  | @oversizedBody r hfits hsent hlarge =>
    refine ⟨"Model provider response exceeds the adapter limit", generate_of_raised hfits hsent ?_⟩
    rw [hlarge]
    rfl
  | @transport r hfits hsent htimeout hos hlarge =>
    refine ⟨"Model provider transport failed", generate_of_raised hfits hsent ?_⟩
    cases hexn : r.exn with
    | timeoutError => exact absurd (.inl hexn) htimeout
    | responseTooLarge => exact absurd hexn hlarge
    | osError => exact absurd (.inl hexn) hos
    | urlError timedOut =>
      by_cases h : timedOut = .ok true
      · exact absurd (.inr (h ▸ hexn)) htimeout
      · exact absurd (.inr ⟨timedOut, hexn, h⟩) hos
    | _ => rfl
  | @value returned hfits hsent hshape =>
    rw [generate_of_returned hfits hsent]
    unfold readResult
    rcases normalizeTransportResult_cases returned with ⟨response, hcarries, -⟩ | ⟨-, hnone | ⟨e, hmapping, he⟩⟩
    · exact absurd hcarries (hshape response)
    · rw [hnone]
      exact ⟨_, rfl⟩
    · rw [he, raise_bind]
      by_cases hforeign : ∃ message, e = .provider .providerFailed message
      · obtain ⟨message, rfl⟩ := hforeign
        exact ⟨message, rfl⟩
      · push Not at hforeign
        exact absurd (.mapping hfits hsent hmapping hforeign) (hescapes _)
  | @redirect response hfits hresponds hstatus =>
    rw [generate_of_responds hfits hresponds]
    unfold statusError
    rw [if_pos hstatus]
    exact ⟨_, rfl⟩
  | @client response hfits hresponds hstatus =>
    rw [generate_of_responds hfits hresponds]
    unfold statusError
    rw [if_neg (by omega), if_pos hstatus]
    exact ⟨_, rfl⟩
  | @server response hfits hresponds hstatus =>
    rw [generate_of_responds hfits hresponds]
    unfold statusError
    rw [if_neg (by omega), if_neg (by omega), if_pos hstatus]
    exact ⟨_, rfl⟩
  | @status response hfits hresponds hstatus hok =>
    rw [generate_of_responds hfits hresponds]
    unfold statusError
    rw [if_neg (by omega), if_neg (by omega), if_neg (by omega), if_pos hok]
    exact ⟨_, rfl⟩
  | @body response hfits hresponds hstatus hnone =>
    rw [generate_of_responds hfits hresponds, hstatus]
    rcases readResponse_cases config loads response with
      ⟨text, hlimits, htold, -⟩ | ⟨-, ⟨⟨message, hread⟩, -⟩ | ⟨hlimits, hloads, -⟩⟩
    · exact absurd ⟨hfits, response, hresponds, hstatus, hlimits, htold⟩ (hnone text)
    · exact ⟨message, hread⟩
    · exact absurd (.integer hfits hresponds hstatus hlimits hloads) (hescapes _)

/-- Every input delivers a string or is in a row of the table. -/
theorem delivers_or_documented (config : Config) (transport : Transport) (loads : Loads)
    (request : ModelRequest) : (∃ text, Delivers config transport loads request text) ∨
      ∃ row, Documented config transport loads request row := by
  by_cases hfits : Fits config request
  · cases hsent : sent config transport request with
    | error r =>
      by_cases htimeout : TimedOut r.exn
      · exact .inr ⟨_, .timeout hfits hsent htimeout⟩
      · by_cases hos : OsFailure r.exn
        · exact .inr ⟨_, .unavailable hfits hsent hos⟩
        · by_cases hlarge : r.exn = .responseTooLarge
          · exact .inr ⟨_, .oversizedBody hfits hsent hlarge⟩
          · exact .inr ⟨_, .transport hfits hsent htimeout hos hlarge⟩
    | ok returned =>
      by_cases hshape : ∃ response, Carries returned response
      · obtain ⟨response, hcarries⟩ := hshape
        have hresponds : Responds config transport request response := ⟨returned, hsent, hcarries⟩
        by_cases hok : response.status = 200
        · by_cases hdelivers : ∃ text, Delivers config transport loads request text
          · exact .inl hdelivers
          · exact .inr ⟨_, .body hfits hresponds hok fun text h => hdelivers ⟨text, h⟩⟩
        · right
          rcases Int.lt_or_le response.status 300 with h | h₃
          · exact ⟨_, .status hfits hresponds (.inl h) hok⟩
          · rcases Int.lt_or_le response.status 400 with h | h₄
            · exact ⟨_, .redirect hfits hresponds ⟨h₃, h⟩⟩
            · rcases Int.lt_or_le response.status 500 with h | h₅
              · exact ⟨_, .client hfits hresponds ⟨h₄, h⟩⟩
              · rcases Int.lt_or_le response.status 600 with h | h₆
                · exact ⟨_, .server hfits hresponds ⟨h₅, h⟩⟩
                · exact ⟨_, .status hfits hresponds (.inr h₆) hok⟩
      · exact .inr ⟨_, .value hfits hsent fun response h => hshape ⟨response, h⟩⟩
  · exact .inr ⟨_, .oversized hfits⟩

/-- What escapes is not what the table says. -/
theorem Escapes.not_normalized {r : Raise Exn} (h : Escapes config transport loads request r) :
    ¬Normalized config transport loads request := by
  intro hnormal
  obtain ⟨hcontext, kind, message, hexn, hrows⟩ := hnormal.error r h.raises
  cases h with
  | reason hfits hsent hreason => cases hcontext
  | mapping hfits hsent hmapping hforeign =>
    have hrow : ErrorKind.providerFailed = kind :=
      (hrows _).mp (.value hfits hsent fun response hcarries => hcarries.mapping hmapping)
    exact hforeign message (hrow ▸ hexn)
  | integer hfits hresponds hstatus hlimits hloads => cases hexn

/-- Every outcome is normalized if and only if nothing escapes. -/
theorem normalized_iff (config : Config) (transport : Transport) (loads : Loads)
    (request : ModelRequest) : Normalized config transport loads request ↔
      ∀ r, ¬Escapes config transport loads request r := by
  constructor
  · intro h r hescapes
    exact hescapes.not_normalized h
  · intro hescapes
    refine ⟨?_, ?_⟩
    · intro text
      constructor
      · intro h
        rcases delivers_or_documented config transport loads request with ⟨text', hdelivers⟩ | ⟨row, hrow⟩
        · have htext := hdelivers.returns
          rw [h] at htext
          exact Except.ok.inj htext ▸ hdelivers
        · obtain ⟨message, hraise⟩ := hrow.raises hescapes
          rw [h] at hraise
          cases hraise
      · exact Delivers.returns
    · intro r h
      rcases delivers_or_documented config transport loads request with ⟨text, hdelivers⟩ | ⟨row, hrow⟩
      · rw [hdelivers.returns] at h
        cases h
      · obtain ⟨message, hraise⟩ := hrow.raises hescapes
        rw [h] at hraise
        cases hraise
        refine ⟨rfl, row, message, rfl, ?_⟩
        intro row'
        constructor
        · intro hrow'
          obtain ⟨message', hraise'⟩ := hrow'.raises hescapes
          rw [h] at hraise'
          cases hraise'
          rfl
        · rintro rfl
          exact hrow

end Generate

/-! ### A long integer -/

def sampleConfig : Config where
  endpointUrl := "https://models.example/v1/chat/completions"
  apiKey := none
  maxRequestBytes := 8388608
  maxResponseBytes := 8388608
  requestPositive := by decide
  responsePositive := by decide
  responseCeiling := by decide

def sampleRequest : ModelRequest where
  model := "m"
  messages := [⟨.user, "hi"⟩]
  nonempty := by decide
  timeoutSeconds := 5
  positive := by decide
  bounded := by decide

/-- An integer literal of 4301 digits. -/
def longInteger : String := String.ofList (List.replicate 4301 '1')

/-- What `json.loads` makes of integer literals; other texts are of no interest here. -/
def literalLoads (text : String) : Except LoadsError Document :=
  if text.toList = [] ∨ ¬text.toList.all Char.isDigit then .error .jsonDecodeError
  else if text.length ≤ 4300 then .ok .scalar
  else .error .valueError

/-- A transport that answers with the text. -/
def answering (text : String) : Transport := fun _ _ _ =>
  .ok (.response (some 200) (some text.toByteArray) .absent)

theorem answering_escapes {text : String} (hsize : text.utf8ByteSize ≤ sampleConfig.maxResponseBytes)
    (hloads : literalLoads text = .error .valueError) :
    Escapes sampleConfig (answering text) literalLoads sampleRequest ⟨.valueError, none⟩ := by
  have hresponds : Responds sampleConfig (answering text) sampleRequest ⟨200, text.toByteArray, none⟩ :=
    ⟨_, rfl, .unsized 200 _⟩
  have hbody : String.fromUTF8? text.toByteArray = some text := by
    unfold String.fromUTF8?
    rw [dif_pos text.isValidUTF8]
    rfl
  have hfits : Fits sampleConfig sampleRequest := by
    unfold Fits
    decide
  exact .integer hfits hresponds rfl ⟨trivial, hsize⟩ ⟨text, hbody, hloads⟩

theorem longInteger_size : longInteger.utf8ByteSize = 4301 := by
  have hsize : ∀ n, (String.ofList (List.replicate n '1')).utf8ByteSize = n := by
    intro n
    induction n with
    | zero => rfl
    | succ n ih =>
      rw [List.replicate_succ, String.ofList_cons, String.utf8ByteSize_append, ih,
        String.utf8ByteSize_singleton, Nat.add_comm]
      rfl
  exact hsize 4301

theorem longInteger_loads : literalLoads longInteger = .error .valueError := by
  have hlist : longInteger.toList = List.replicate 4301 '1' := String.toList_ofList
  have hlength : longInteger.length = 4301 := by
    rw [← String.length_toList, hlist, List.length_replicate]
  have hdigits : longInteger.toList.all Char.isDigit = true := by
    rw [hlist, List.all_eq_true]
    intro c hc
    rw [List.eq_of_mem_replicate hc]
    rfl
  unfold literalLoads
  rw [if_neg, if_neg (by omega)]
  rintro (h | h)
  · rw [hlist] at h
    cases h
  · exact h hdigits

/-- A body that is one long integer lets the `ValueError` of `json.loads` out. -/
theorem long_integer_escapes : ¬∀ (config : Config) (transport : Transport) (loads : Loads)
    (request : ModelRequest), Normalized config transport loads request := by
  intro h
  have hsize : longInteger.utf8ByteSize ≤ sampleConfig.maxResponseBytes := by
    rw [longInteger_size]
    decide
  exact (answering_escapes hsize longInteger_loads).not_normalized (h _ _ _ _)

/-! ### The guards of sizes -/

/-- A limit that `str` refuses is never met by a numeral. -/
theorem bounded_of_long {maximum : Nat} (hlong : maxStrDigits < (toString maximum).length) (text : String) :
    boundedContentLengthValue (some text) maximum ≠ .ok () := by
  have hrefused : integerText maximum = raise .valueError := if_pos hlong
  unfold boundedContentLengthValue
  dsimp only
  split
  · exact nofun
  · rw [hrefused, raise_bind]
    exact nofun

/-- The early test of a request refuses nothing that the exact one lets through, and the declared length is
    compared with the limit as a number, unless the limit is too long for `str`. -/
theorem size_guards_agree :
    (∀ config request maximum, maximum < minimumRequestSize request maximum →
        maximum < (httpRequest config request).data.size) ∧
      ∀ text maximum, boundedContentLengthValue (some text) maximum = .ok () ↔
        (toString maximum).length ≤ maxStrDigits ∧ text.toList ≠ [] ∧ Decimal.Digits text.toList ∧
          Decimal.value text.toList ≤ maximum := by
  refine ⟨?_, ?_⟩
  · intro config request maximum hearly
    rw [payload_size]
    exact hearly.trans_le (minimumRequestSize_le request maximum)
  · intro text maximum
    by_cases hshort : (toString maximum).length ≤ maxStrDigits
    · rcases bounded_iff (some text) hshort with ⟨haccepted, hwithin⟩ | ⟨hrefused, hlarge⟩
      · exact iff_of_true haccepted ⟨hshort, hwithin⟩
      · refine iff_of_false ?_ fun h => hlarge h.2
        rw [hrefused]
        exact nofun
    · exact iff_of_false (bounded_of_long (Nat.lt_of_not_le hshort) text) fun h => hshort h.1

/-- A limit of twenty bytes, and a length with leading zeros. -/
theorem sampleRequest_guards :
    20 < (httpRequest sampleConfig sampleRequest).data.size ∧
      boundedContentLengthValue (some "0020") 20 = .ok () := by
  have hdigits : "0020".toList.all Char.isDigit = true := by rfl
  refine ⟨size_guards_agree.1 sampleConfig sampleRequest 20 (by decide), (size_guards_agree.2 "0020" 20).2 ?_⟩
  exact ⟨by decide, by decide, List.all_eq_true.mp hdigits, by decide⟩

/-- With a limit of 4301 digits even the length zero is not accepted. -/
theorem long_limit_raises : ¬∀ (text : String) (maximum : Nat), 0 < maximum →
    (boundedContentLengthValue (some text) maximum = .ok () ↔
      text.toList ≠ [] ∧ Decimal.Digits text.toList ∧ Decimal.value text.toList ≤ maximum) := by
  intro h
  have hpos : ∀ n, 0 < 10 ^ n := fun n => Nat.pow_pos (by decide)
  have hlong : ∀ n, 0 < n → n < (toString (10 ^ n)).length := by
    intro n hn
    by_contra hnot
    exact absurd ((Nat.length_repr_le_iff hn).mp (Nat.not_lt.mp hnot)) (Nat.lt_irrefl _)
  have hdigits : "0".toList.all Char.isDigit = true := by rfl
  refine bounded_of_long (hlong maxStrDigits (by decide)) "0" ((h "0" _ (hpos maxStrDigits)).2 ?_)
  exact ⟨by decide, List.all_eq_true.mp hdigits, Nat.zero_le _⟩

end HermesOps.ModelProvider
