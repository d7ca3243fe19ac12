import NexaFx.Lib.JsonRoundTrip
import NexaFx.Model.Idempotency

/-!
# NexaFx — the hash of a request

`hashRequest` of `idempotency/idempotency.service.ts`: the SHA-256 digest of
`JSON.stringify({ method, url, body })`. The digest is a parameter. A body is what
`JSON.parse` made of the text that was sent, or `undefined`, which has no text.

* `text_eq_iff` — two requests have one text when they have the same method, URL
  and body (`Same`), but for numbers too large for a double, such as `1e999`,
  which are written as `null`.
-/

namespace NexaFx

namespace Idempotency

open JsonText

/-- `request.body` -/
abbrev Body := Option { v : Value // Regular Read v }

/-- What `JSON.parse` makes of a text, when it does not throw. -/
def Body.parse (raw : JsonText.Text) : Body :=
  (JsonText.parse raw).attach.map fun v => ⟨v.val, regular_parse v.property⟩

def Body.fields (body : Body) : List (JsonText.Text × Value) :=
  match body with
  | some v => [(units "body", v.val)]
  | none => []

def content (method url : String) (body : Body) : Value :=
  .obj ((units "method", .str (Utf16.encode method.toList)) ::
    (units "url", .str (Utf16.encode url.toList)) :: body.fields)

def hashRequest {J H : Type} (sha256 : JsonText.Text → H) (json : J → Body) (method url : String)
    (body : J) : H := sha256 (stringify (content method url (json body)))

/-- The body up to numbers that JSON does not have. -/
def Body.finite (body : Body) : Option Value := body.map fun v => v.val.finite

section Contents

variable {method method' url url' : String} {body body' : Body}

theorem inOrder_content {v w : Value} :
    InOrder ((units "method", v) :: (units "url", w) :: body.fields) := by
  have hurl : units "method" ≠ units "url" ∧
      precedes (units "url") (units "method") = false := by decide
  have hbody : units "method" ≠ units "body" ∧
      precedes (units "body") (units "method") = false := by decide
  have hbody' : units "url" ≠ units "body" ∧
      precedes (units "body") (units "url") = false := by decide
  cases body with
  | none => exact List.pairwise_pair.mpr hurl
  | some b =>
    exact List.pairwise_cons.mpr ⟨List.forall_mem_cons.mpr
      ⟨hurl, List.forall_mem_singleton.mpr hbody⟩, List.pairwise_pair.mpr hbody'⟩

theorem regular_content : Regular Read (content method url body) := by
  refine .obj inOrder_content ?_
  cases body with
  | none => simp [Body.fields, Regular.str]
  | some v => simp [Body.fields, Regular.str, v.property]

theorem finite_content : (content method url body).finite =
    .obj ((units "method", .str (Utf16.encode method.toList)) ::
      (units "url", .str (Utf16.encode url.toList)) ::
        (body.finite.map fun v => (units "body", v)).toList) := by
  cases body <;> rfl

theorem encode_injective {s t : String} (h : Utf16.encode s.toList = Utf16.encode t.toList) :
    s = t := by
  have hscalars := congrArg Utf16.scalars h
  rw [Utf16.scalars_encode, Utf16.scalars_encode] at hscalars
  exact String.toList_inj.mp hscalars

/-- **Requests with one text.** -/
theorem stringify_content_iff :
    stringify (content method url body) = stringify (content method' url' body') ↔
      method = method' ∧ url = url' ∧ body.finite = body'.finite := by
  rw [stringify_eq_iff regular_content regular_content, finite_content, finite_content]
  constructor
  · intro h
    simp only [Value.obj.injEq, List.cons.injEq, Prod.mk.injEq, Value.str.injEq, true_and] at h
    obtain ⟨hmethod, hurl, hbody⟩ := h
    refine ⟨encode_injective hmethod, encode_injective hurl, ?_⟩
    cases hfinite : body.finite <;> cases hfinite' : body'.finite <;>
      simp [hfinite, hfinite'] at hbody ⊢
    exact hbody
  · rintro ⟨rfl, rfl, hbody⟩
    rw [hbody]

end Contents

/-- What is hashed of a request. -/
def Request.text {J : Type} (json : J → Body) (r : Request J) : JsonText.Text :=
  stringify (content r.method r.url (json r.body))

/-- The two requests have the same method, URL and body. -/
structure Same {J : Type} (json : J → Body) (r r' : Request J) : Prop where
  method : r.method = r'.method
  url : r.url = r'.url
  body : (json r.body).finite = (json r'.body).finite

theorem text_eq_iff {J : Type} {json : J → Body} {r r' : Request J} :
    r.text json = r'.text json ↔ Same json r r' := by
  rw [Request.text, Request.text, stringify_content_iff]
  exact ⟨fun ⟨hmethod, hurl, hbody⟩ => ⟨hmethod, hurl, hbody⟩,
    fun h => ⟨h.method, h.url, h.body⟩⟩

end Idempotency

end NexaFx
