import Mathlib.Tactic.NormNum
import BankingAi.Ai.OpenAICompatible
import BankingAi.Lib.Fallible

/-!
# When a provider keeps its contract

Every failure before the end of `complete` becomes an `LLMProviderError`. The end reads the usage and
builds the result outside every handler, so a reply of the expected shape whose content, usage or
token counts have the wrong type makes `complete` raise another exception; nothing else does.
-/

namespace BankingAi.Ai

open Json

/-- Only an `LLMProviderError` is raised. -/
def Contained (reply : Except Exn CompletionResult) : Prop :=
  ∀ e, reply = .error e → e.IsApp .llmProvider

/-- The reply has the expected shape, with the given content in its first choice. -/
structure Shape (data : Json) (fields : List (String × Json)) (content : Json) : Prop where
  object : data = .obj fields
  choice : ∃ choice message others, field? fields "choices" = some (.arr (.obj choice :: others)) ∧
    field? choice "message" = some (.obj message) ∧ field? message "content" = some content

/-- The usage is an object, and the token counts it has can be read as integers. -/
def CountsReadable (usage : Json) : Prop :=
  ∃ counts, usage = .obj counts ∧ ∀ key ∈ ["prompt_tokens", "completion_tokens"], ∀ count,
    field? counts key = some count → ∃ n, count.toInt = .ok n

/-- The fields that the end of `complete` reads have usable types. -/
structure WellTyped (fields : List (String × Json)) (content : Json) : Prop where
  content : content.truthy = false ∨ ∃ text, content = .str text
  usage : ∀ usage, field? fields "usage" = some usage → CountsReadable usage

/-- The server answers one of the allowed posts with success and `data`, after transport errors
only. -/
def Delivers (posts : ℕ → Except PostError HttpResponse) (maxRetries : ℕ) (data : Json) : Prop :=
  ∃ n ≤ maxRetries, (∀ k < n, ∃ typeName text, posts k = .error (.transport typeName text)) ∧
    ∃ response, posts n = .ok response ∧ response.isSuccess ∧ response.json = .ok data

section fetch

variable {posts : ℕ → Except PostError HttpResponse} {response : HttpResponse}

/-- The loop ends with a response if one of the posts left returns it, after transport errors. -/
theorem post_eq_ok {n retries : ℕ} :
    OpenAICompatibleProvider.post posts n retries = .ok response ↔
      ∃ m ≤ retries, (∀ k < m, ∃ typeName text, posts (n + k) = .error (.transport typeName text)) ∧
        posts (n + m) = .ok response := by
  induction retries generalizing n with
  | zero =>
    rw [OpenAICompatibleProvider.post]
    constructor
    · intro h
      exact ⟨0, le_rfl, by simp, h⟩
    · rintro ⟨m, hm, -, h⟩
      obtain rfl : m = 0 := by omega
      exact h
  | succ retries ih =>
    rw [OpenAICompatibleProvider.post]
    split
    case h_1 typeName text hn =>
      rw [ih]
      constructor
      · rintro ⟨m, hm, hbefore, h⟩
        refine ⟨m + 1, by omega, fun k hk => ?_, by rw [← h]; congr 1; omega⟩
        cases k with
        | zero => exact ⟨typeName, text, hn⟩
        | succ k => rw [← Nat.add_assoc, Nat.add_right_comm]; exact hbefore k (by omega)
      · rintro ⟨m, hm, hbefore, h⟩
        cases m with
        | zero => rw [Nat.add_zero, hn] at h; cases h
        | succ m =>
          refine ⟨m, by omega, fun k hk => ?_, by rw [← h]; congr 1; omega⟩
          rw [Nat.add_right_comm, Nat.add_assoc]
          exact hbefore (k + 1) (by omega)
    case h_2 hn =>
      constructor
      · intro h
        exact ⟨0, by omega, by simp, h⟩
      · rintro ⟨m, hm, hbefore, h⟩
        cases m with
        | zero => exact h
        | succ m =>
          obtain ⟨typeName, text, h0⟩ := hbefore 0 (by omega)
          exact absurd h0 (hn typeName text)

theorem readBody_eq_ok {data : Json} :
    OpenAICompatibleProvider.readBody response = .ok data ↔
      response.isSuccess ∧ response.json = .ok data := by
  unfold OpenAICompatibleProvider.readBody
  split
  case isTrue hs => cases response.json <;> simp [hs]
  case isFalse hs => simp [hs]

theorem fetch_eq_ok {provider : OpenAICompatibleProvider} {server : Server}
    {request : CompletionRequest} {data : Json} :
    provider.fetch server request = .ok data ↔
      Delivers (server (provider.httpRequest request)) provider.maxRetries data := by
  unfold OpenAICompatibleProvider.fetch Delivers
  constructor
  · intro h
    split at h
    case h_1 response hpost =>
      obtain ⟨m, hm, hbefore, hresp⟩ := post_eq_ok.1 hpost
      simp only [Nat.zero_add] at hbefore hresp
      exact ⟨m, hm, hbefore, response, hresp, readBody_eq_ok.1 h⟩
    case h_2 => cases h
  · rintro ⟨m, hm, hbefore, response, hresp, hbody⟩
    have hpost : OpenAICompatibleProvider.post (server (provider.httpRequest request)) 0
        provider.maxRetries = .ok response :=
      post_eq_ok.2 ⟨m, hm, by simpa only [Nat.zero_add] using hbefore, by rwa [Nat.zero_add]⟩
    rw [hpost]
    exact readBody_eq_ok.2 hbody

end fetch

section reply

variable {data text usage content : Json}

theorem readReply_of_shape {fields : List (String × Json)} (h : Shape data fields content) :
    OpenAICompatibleProvider.readReply data =
      .ok (content.orEmpty, (field? fields "usage").getD (.obj [])) := by
  obtain ⟨rfl, choice, message, others, hchoices, hmessage, hcontent⟩ := h
  simp only [OpenAICompatibleProvider.readReply, bind, Except.bind, getKey_obj hchoices, getFirst,
    getKey_obj hmessage, getKey_obj hcontent, Json.getD, pure, Except.pure]

theorem shape_or_lookupError (data : Json) :
    (∃ fields content, Shape data fields content) ∨
      ∃ e, OpenAICompatibleProvider.readReply data = .error e ∧ IsLookupError e := by
  cases h1 : data.getKey "choices" with
  | error e =>
    refine .inr ⟨e, ?_, getKey_error h1⟩
    simp only [OpenAICompatibleProvider.readReply, bind, Except.bind, h1]
  | ok choices =>
    cases h2 : choices.getFirst with
    | error e =>
      refine .inr ⟨e, ?_, getFirst_error h2⟩
      simp only [OpenAICompatibleProvider.readReply, bind, Except.bind, h1, h2]
    | ok choice =>
      cases h3 : choice.getKey "message" with
      | error e =>
        refine .inr ⟨e, ?_, getKey_error h3⟩
        simp only [OpenAICompatibleProvider.readReply, bind, Except.bind, h1, h2, h3]
      | ok message =>
        cases h4 : message.getKey "content" with
        | error e =>
          refine .inr ⟨e, ?_, getKey_error h4⟩
          simp only [OpenAICompatibleProvider.readReply, bind, Except.bind, h1, h2, h3, h4]
        | ok content =>
          obtain ⟨fields, rfl, hchoices⟩ := getKey_eq_ok h1
          obtain ⟨others, rfl⟩ := getFirst_getKey_eq_ok h2 h3
          obtain ⟨cfields, rfl, hmessage⟩ := getKey_eq_ok h3
          obtain ⟨mfields, rfl, hcontent⟩ := getKey_eq_ok h4
          exact .inl ⟨fields, content, rfl, cfields, mfields, others, hchoices, hmessage, hcontent⟩

theorem orEmpty_eq_str :
    (∃ s, content.orEmpty = .str s) ↔ content.truthy = false ∨ ∃ s, content = .str s := by
  unfold orEmpty
  cases ht : content.truthy with
  | false => simp
  | true => simp

theorem toInt_getD {counts : List (String × Json)} {key : String} (d : ℤ) :
    (∃ n, ((field? counts key).getD (.int d)).toInt = .ok n) ↔
      ∀ count, field? counts key = some count → ∃ n, count.toInt = .ok n := by
  cases field? counts key with
  | none => exact ⟨fun _ _ h => (by cases h), fun _ => ⟨d, rfl⟩⟩
  | some count => exact ⟨fun h count' heq => Option.some.inj heq ▸ h, fun h => h count rfl⟩

variable (provider : OpenAICompatibleProvider) (request : CompletionRequest) (latencyMs : ℤ)

theorem buildResult_eq_ok :
    (∃ result, provider.buildResult request latencyMs text usage = .ok result) ↔
      (∃ s, text = .str s) ∧ CountsReadable usage := by
  constructor
  · rintro ⟨result, h⟩
    cases usage with
    | obj counts =>
      obtain ⟨n, hn, h⟩ := (except_bind_eq_ok (x := toInt _)).1 h
      obtain ⟨length, -, h⟩ := except_bind_eq_ok.1 h
      obtain ⟨m, hm, h⟩ := (except_bind_eq_ok (x := toInt _)).1 h
      refine ⟨?_, counts, rfl, ?_⟩
      · cases text with
        | str s => exact ⟨s, rfl⟩
        | _ => cases h
      · intro key hkey
        simp only [List.mem_cons, List.not_mem_nil, or_false] at hkey
        rcases hkey with rfl | rfl
        · exact (toInt_getD _).1 ⟨n, hn⟩
        · exact (toInt_getD _).1 ⟨m, hm⟩
    | _ => cases h
  · rintro ⟨⟨s, rfl⟩, counts, rfl, hcounts⟩
    obtain ⟨n, hn⟩ := (toInt_getD request.estimatedPromptTokens).2 (hcounts "prompt_tokens" (by simp))
    obtain ⟨m, hm⟩ := (toInt_getD (max 1 ((s.length / 4 : ℕ) : ℤ))).2
      (hcounts "completion_tokens" (by simp))
    refine ⟨⟨s, provider.name, provider.model, false, none, n, m, latencyMs⟩, ?_⟩
    simp only [OpenAICompatibleProvider.buildResult, Json.getD, pyLen, bind, Except.bind, hn, hm]
    rfl

end reply

/-! ### Exceptions of the end of `complete` -/

/-- No application error is raised. -/
def NotApp {α : Type} (x : Except Exn α) : Prop := ∀ e, x = .error e → ¬ e.IsApp .llmProvider

theorem NotApp.bind {α β : Type} {x : Except Exn α} {f : α → Except Exn β} (hx : NotApp x)
    (hf : ∀ a, NotApp (f a)) : NotApp (x >>= f) := by
  cases x with
  | error e => intro e' h; cases h; exact hx e rfl
  | ok a => exact hf a

theorem notApp_getD (v : Json) (key : String) (default : Json) : NotApp (v.getD key default) := by
  cases v <;> · intro e h; cases h <;> exact id

theorem notApp_pyLen (v : Json) : NotApp v.pyLen := by
  cases v <;> · intro e h; cases h <;> exact id

theorem notApp_toInt (v : Json) : NotApp v.toInt := by
  intro e h
  cases v with
  | float x => cases x <;> cases h <;> exact id
  | str s =>
    rw [toInt] at h
    split at h <;> cases h
    exact id
  | _ => cases h <;> exact id

theorem notApp_buildResult (provider : OpenAICompatibleProvider) (request : CompletionRequest)
    (latencyMs : ℤ) (text usage : Json) :
    NotApp (provider.buildResult request latencyMs text usage) := by
  refine .bind (notApp_getD _ _ _) fun p => .bind (notApp_toInt p) fun _ => .bind (notApp_pyLen text)
    fun _ => .bind (notApp_getD _ _ _) fun c => .bind (notApp_toInt c) fun _ => ?_
  intro e h
  unfold OpenAICompatibleProvider.completionResult at h
  split at h <;> cases h
  exact id

section contained

variable {provider : OpenAICompatibleProvider} {server : Server} {request : CompletionRequest}
  {latencyMs : ℤ}

theorem callFailed_isApp (e : CallError) : (provider.callFailed e).IsApp .llmProvider := by
  cases e with
  | httpStatus status => rfl
  | post e => cases e <;> rfl
  | json e => rfl

theorem wellTyped_iff {fields : List (String × Json)} {content : Json} :
    WellTyped fields content ↔
      (∃ s, content.orEmpty = .str s) ∧ CountsReadable ((field? fields "usage").getD (.obj [])) := by
  rw [orEmpty_eq_str]
  constructor
  · rintro ⟨hcontent, husage⟩
    refine ⟨hcontent, ?_⟩
    cases hf : field? fields "usage" with
    | none => exact ⟨[], rfl, fun key _ count h => by cases h⟩
    | some usage => exact husage usage hf
  · rintro ⟨hcontent, husage⟩
    exact ⟨hcontent, fun usage hf => by rwa [hf] at husage⟩

theorem complete_of_shape {data content : Json} {fields : List (String × Json)}
    (hfetch : provider.fetch server request = .ok data) (hshape : Shape data fields content) :
    Contained (provider.complete server latencyMs request) ↔ WellTyped fields content := by
  have hcomplete : provider.complete server latencyMs request =
      provider.buildResult request latencyMs content.orEmpty ((field? fields "usage").getD (.obj [])) := by
    rw [OpenAICompatibleProvider.complete, hfetch]
    dsimp only
    rw [readReply_of_shape hshape]
  rw [hcomplete, wellTyped_iff, ← buildResult_eq_ok provider request latencyMs]
  constructor
  · intro h
    cases hr : provider.buildResult request latencyMs content.orEmpty
        ((field? fields "usage").getD (.obj [])) with
    | ok result => exact ⟨result, rfl⟩
    | error e => exact absurd (h e hr) (notApp_buildResult _ _ _ _ _ e hr)
  · rintro ⟨result, hr⟩ e he
    rw [hr] at he
    cases he

end contained

/-- `complete` raises nothing but `LLMProviderError` exactly when every reply of the expected shape
that the server may deliver is well typed. -/
theorem complete_contained_iff (provider : OpenAICompatibleProvider) (server : Server)
    (latencyMs : ℤ) (request : CompletionRequest) :
    Contained (provider.complete server latencyMs request) ↔
      ∀ data fields content,
        Delivers (server (provider.httpRequest request)) provider.maxRetries data →
          Shape data fields content → WellTyped fields content := by
  constructor
  · intro h data fields content hdelivers hshape
    exact (complete_of_shape (fetch_eq_ok.2 hdelivers) hshape).1 h
  · intro h
    cases hfetch : provider.fetch server request with
    | error e =>
      rintro e' he
      rw [OpenAICompatibleProvider.complete, hfetch] at he
      cases he
      exact callFailed_isApp e
    | ok data =>
      rcases shape_or_lookupError data with ⟨fields, content, hshape⟩ | ⟨e, hread, hlookup⟩
      · exact (complete_of_shape hfetch hshape).2
          (h data fields content (fetch_eq_ok.1 hfetch) hshape)
      · rintro e' he
        rw [OpenAICompatibleProvider.complete, hfetch] at he
        dsimp only at he
        rw [hread] at he
        dsimp only at he
        rw [if_pos (show e.typeName ∈ _ from hlookup)] at he
        cases he
        rfl

/-- A server that replies with a text but no usage. -/
def nullUsageServer : Server := fun _ _ =>
  .ok ⟨200, .ok (.obj
    [("choices", .arr [.obj [("message", .obj [("content", .str "hello")])]]), ("usage", .null)])⟩

/-- A null usage makes `complete` raise an `AttributeError`. -/
theorem null_usage_not_contained :
    ¬ Contained ((OpenAICompatibleProvider.new "groq" "https://api.groq.com/openai/v1/"
      "llama-3.1-8b-instant" (some "key") 30 2 true).complete nullUsageServer 12
        ⟨[⟨.user, "hello"⟩], 1024, 1 / 5, false, none, by decide, by norm_num⟩) := by
  intro h
  exact h (.other "AttributeError" "'NoneType' object has no attribute 'get'") rfl

/-- A provider keeps its contract with the router exactly when, for every request, its server
delivers well typed replies only. -/
theorem toProvider_keepsContract_iff (provider : OpenAICompatibleProvider) (server : Server)
    (latencyMs : ℤ) :
    (provider.toProvider server latencyMs).KeepsContract ↔
      ∀ request data fields content,
        Delivers (server (provider.httpRequest request)) provider.maxRetries data →
          Shape data fields content → WellTyped fields content :=
  forall_congr' fun request => complete_contained_iff provider server latencyMs request

end BankingAi.Ai
