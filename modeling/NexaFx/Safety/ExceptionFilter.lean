import NexaFx.Model.ExceptionFilter

/-!
# NexaFx — what the error log tells about secrets

The filter masks the properties of the body itself and copies their values as
they are. So requests that differ in secrets only are logged alike exactly when
no secret lies deeper in the body, and none in an array.

Main result: `secrets_masked_iff`.
-/

namespace NexaFx

namespace ExceptionFilter

/-- Equal but for the values at the sensitive keys, at any depth of the body. -/
def SameButSecrets (request request' : Request) : Prop :=
  request' = { request with body := request'.body } ∧
    request'.body.map (Json.fill sensitive .null) = request.body.map (Json.fill sensitive .null)

/-- Whatever is thrown, the two requests are logged and answered alike. -/
def Indistinct (request request' : Request) : Prop :=
  ∀ exception now, «catch» exception request' now = «catch» exception request now

/-- Every sensitive key of the body is one of its own; the values at its other
keys have none. -/
def Shallow : Option Json → Prop
  | some (.obj fields) =>
    ∀ f ∈ fields, sensitive f.1 = true ∨ f.1 = PROTO ∨ Json.keyed sensitive f.2 = false
  | some body => Json.keyed sensitive body = false
  | none => True

/-! ## Masking -/

/-- What is logged depends on the masked body alone. -/
theorem catch_congr {request request' : Request}
    (hrest : request' = { request with body := request'.body })
    (hmask : maskBody request'.body = maskBody request.body) : Indistinct request request' := by
  intro exception now
  have hpayload (message : Json) : request'.logPayload message = request.logPayload message := by
    rw [hrest]
    unfold Request.logPayload
    rw [hmask]
  have hreport (status : ℕ) (message : Json) :
      request'.report status message = request.report status message := by
    unfold Request.report
    rw [hpayload]
  have hrespond (status : ℕ) (message : Json) :
      request'.respond status message now = request.respond status message now := by
    rw [hrest]
    rfl
  cases exception with
  | http status response => rw [«catch», «catch», hreport, hrespond]
  | other message stack => simp only [«catch», hreport, hrespond]
  | nullish => rfl

/-- And it shows the masked body. -/
theorem mask_of_indistinct {request request' : Request} (h : Indistinct request request') :
    maskBody request'.body = maskBody request.body := by
  have hlog := h (.http 400 .null) 0
  simp only [«catch», Option.some.injEq, Prod.mk.injEq, List.cons.injEq, Request.report] at hlog
  have hpayload := hlog.1.1
  rw [if_neg (by decide), if_neg (by decide), LogEntry.warn.injEq] at hpayload
  exact congrArg LogPayload.body hpayload

/-- A secret that is masked or dropped does not show. -/
theorem maskField_fill {x : Json} {f : String × Json}
    (h : sensitive f.1 = true ∨ f.1 = PROTO ∨ Json.keyed sensitive f.2 = false) :
    maskField (f.1, if sensitive f.1 = true then x else Json.fill sensitive x f.2) = maskField f := by
  unfold maskField
  dsimp only
  by_cases hproto : f.1 = PROTO
  · rw [if_pos hproto, if_pos hproto]
  · by_cases hsecret : sensitive f.1 = true
    · rw [if_neg hproto, if_neg hproto, if_pos hsecret, if_pos hsecret]
    · rw [if_neg hproto, if_neg hproto, if_neg hsecret, if_neg hsecret, if_neg hsecret]
      have hnone := (h.resolve_left hsecret).resolve_left hproto
      rw [Json.fill_of_keyless x hnone]

/-- Filling the secrets of a shallow body does not change what is logged. -/
theorem maskBody_fill (x : Json) {body : Option Json} (h : Shallow body) :
    maskBody (body.map (Json.fill sensitive x)) = maskBody body := by
  cases body with
  | none => rfl
  | some body =>
    cases body with
    | obj fields =>
      have hfields : ∀ f ∈ fields, sensitive f.1 = true ∨ f.1 = PROTO ∨
        Json.keyed sensitive f.2 = false := h
      rw [Option.map_some, Json.fill_obj, maskBody, maskBody, List.filterMap_map]
      refine congrArg _ (congrArg _ (List.filterMap_congr fun f hf => ?_))
      exact maskField_fill (hfields f hf)
    | arr elems =>
      rw [Option.map_some, Json.fill_of_keyless x h]
    | _ => rfl

theorem keyless_fill (x j : Json) :
    Json.keyed sensitive (Json.fill sensitive x j) = false ↔ Json.keyed sensitive j = false := by
  rw [← Bool.not_eq_true, Json.keyed_fill, Bool.not_eq_true]

/-- Where the secrets are does not depend on what they are. -/
theorem shallow_fill (x : Json) (body : Option Json) :
    Shallow (body.map (Json.fill sensitive x)) ↔ Shallow body := by
  cases body with
  | none => exact Iff.rfl
  | some body =>
    cases body with
    | obj fields =>
      rw [Option.map_some, Json.fill_obj]
      show (∀ f ∈ fields.map _, _) ↔ ∀ f ∈ fields, _
      rw [List.forall_mem_map]
      refine forall₂_congr fun f _ => ?_
      dsimp only
      by_cases hsecret : sensitive f.1 = true
      · simp [hsecret]
      · rw [if_neg hsecret, keyless_fill]
    | arr elems => exact keyless_fill x (.arr elems)
    | _ => exact Iff.rfl

/-- Two ways to make the entries of a list that keep the same ones. -/
theorem eq_of_filterMap_eq {α β : Type} {g g' : α → Option β}
    (hkept : ∀ a, (g a).isSome = (g' a).isSome) {l : List α}
    (h : l.filterMap g = l.filterMap g') : ∀ a ∈ l, g a = g' a := by
  induction l with
  | nil => exact fun a ha => absurd ha List.not_mem_nil
  | cons a rest ih =>
    rw [List.filterMap_cons, List.filterMap_cons] at h
    have hsame := hkept a
    rw [List.forall_mem_cons]
    cases hg : g a with
    | none =>
      cases hg' : g' a with
      | none =>
        rw [hg, hg'] at h
        exact ⟨rfl, ih h⟩
      | some b' => simp [hg, hg'] at hsame
    | some b =>
      cases hg' : g' a with
      | none => simp [hg, hg'] at hsame
      | some b' =>
        rw [hg, hg'] at h
        obtain ⟨rfl, hrest⟩ := List.cons.inj h
        exact ⟨rfl, ih hrest⟩

/-- A body whose secrets do not show is shallow. -/
theorem shallow_of_mask {body : Option Json}
    (h : maskBody (body.map (Json.fill sensitive .null)) =
      maskBody (body.map (Json.fill sensitive (.bool true)))) : Shallow body := by
  have hne : Json.null ≠ Json.bool true := Json.noConfusion
  -- a body that is not an object is logged as it is
  have hwhole {j : Json} (hj : Json.fill sensitive .null j = Json.fill sensitive (.bool true) j) :
      Json.keyed sensitive j = false := by
    by_contra hkeyed
    exact Json.fill_injective hne (Bool.not_eq_false _ ▸ hkeyed) hj
  cases body with
  | none => trivial
  | some body =>
    cases body with
    | obj fields =>
      rw [Option.map_some, Option.map_some, Json.fill_obj, Json.fill_obj, maskBody, maskBody,
        Option.some.injEq, Json.obj.injEq, List.filterMap_map, List.filterMap_map] at h
      intro f hf
      have hmask := eq_of_filterMap_eq (fun f => by
        unfold maskField
        rw [Function.comp_apply, Function.comp_apply]
        dsimp only
        split <;> rfl) h f hf
      rw [Function.comp_apply, Function.comp_apply, maskField, maskField] at hmask
      dsimp only at hmask
      by_cases hproto : f.1 = PROTO
      · exact Or.inr (Or.inl hproto)
      · by_cases hsecret : sensitive f.1 = true
        · exact Or.inl hsecret
        · refine Or.inr (Or.inr (hwhole ?_))
          rw [if_neg hproto, if_neg hproto, if_neg hsecret, if_neg hsecret, if_neg hsecret,
            if_neg hsecret, Option.some.injEq] at hmask
          exact congrArg Prod.snd hmask
    | arr elems =>
      rw [Option.map_some, Option.map_some, Json.fill_arr, Json.fill_arr] at h
      refine hwhole ?_
      rw [Json.fill_arr, Json.fill_arr]
      exact Option.some.inj h
    | _ => rfl

/-! ## Requests -/

/-- The request with other secrets. -/
theorem sameButSecrets_fill (request : Request) (x : Json) :
    SameButSecrets request { request with body := request.body.map (Json.fill sensitive x) } := by
  refine ⟨rfl, ?_⟩
  cases request.body with
  | none => rfl
  | some body => exact congrArg some (Json.fill_fill x .null body)

/-- **Secrets do not reach the log** of a request exactly when its body is
shallow. -/
theorem secrets_masked_iff (request : Request) :
    (∀ request', SameButSecrets request request' → Indistinct request request') ↔
      Shallow request.body := by
  constructor
  · intro h
    refine shallow_of_mask ?_
    rw [mask_of_indistinct (h _ (sameButSecrets_fill request .null)),
      mask_of_indistinct (h _ (sameButSecrets_fill request (.bool true)))]
  · intro hshallow request' hsame
    refine catch_congr hsame.1 ?_
    have hshallow' : Shallow request'.body := by
      rw [← shallow_fill .null, hsame.2, shallow_fill]
      exact hshallow
    rw [← maskBody_fill .null hshallow', hsame.2, maskBody_fill .null hshallow]

/-! ## A nested password -/

/-- A login request with the password inside an object. -/
def nestedLogin (password : String) : Request where
  method := "POST"
  url := "/auth/login"
  body := some (.obj [("credentials", .obj [("password", .str password)])])
  correlationId := none
  userId := none

/-- Two passwords, two log entries. -/
theorem nested_password_logged : SameButSecrets (nestedLogin "first") (nestedLogin "second") ∧
    ¬ Indistinct (nestedLogin "first") (nestedLogin "second") := by
  refine ⟨⟨rfl, ?_⟩, fun h => ?_⟩
  · have hsecret : sensitive "password" = true := by decide
    have hplain : sensitive "credentials" = false := by decide
    simp [nestedLogin, hsecret, hplain]
  · have hmask := mask_of_indistinct h
    have hcredentials : maskField ("credentials", .obj [("password", .str "first")]) =
        some ("credentials", .obj [("password", .str "first")]) := by
      rw [maskField, if_neg (by decide), if_neg (by decide)]
    have hcredentials' : maskField ("credentials", .obj [("password", .str "second")]) =
        some ("credentials", .obj [("password", .str "second")]) := by
      rw [maskField, if_neg (by decide), if_neg (by decide)]
    rw [nestedLogin, nestedLogin, maskBody, maskBody] at hmask
    simp [hcredentials, hcredentials'] at hmask

end ExceptionFilter

end NexaFx
