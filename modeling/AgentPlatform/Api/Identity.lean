import AgentPlatform.Api.Chats
import AgentPlatform.Api.Sessions

/-!
# One account, one identity

The login looks the account up by the address in lower case, and derives the user id from a
digest of the address as it was typed.  So two spellings of one address open one account, and
then act as two users.

* `SessionEnv.userId_eq_iff` — the user id is the first four bytes of the digest.
* `OneIdentity` — two logins after which nothing tells how the address was typed.
* `logins_oneIdentity_iff` — **when two logins give one identity**: the addresses were typed
  alike, or their digests collide.
* `memory_forks`, `ownership_forks` — what two identities do not share.
-/

namespace AgentPlatform

/-! ## The user id -/

theorem hexDigit_inj {a b : ℕ} (ha : a < 16) (hb : b < 16) (h : hexDigit a = hexDigit b) :
    a = b := by
  have hall : ∀ a < 16, ∀ b < 16, hexDigit a = hexDigit b → a = b := by decide
  exact hall a ha b hb h

/-- The two digits of a byte. -/
def hexByte (b : UInt8) : List Char := [hexDigit (b.toNat / 16), hexDigit (b.toNat % 16)]

theorem hexByte_inj {a b : UInt8} (h : hexByte a = hexByte b) : a = b := by
  have ha := a.toNat_lt
  have hb := b.toNat_lt
  simp only [hexByte, List.cons.injEq, and_true] at h
  have hhigh : a.toNat / 16 = b.toNat / 16 := hexDigit_inj (by omega) (by omega) h.1
  have hlow : a.toNat % 16 = b.toNat % 16 := hexDigit_inj (by omega) (by omega) h.2
  apply UInt8.toNat.inj
  omega

theorem flatMap_hexByte_inj {xs ys : List UInt8} (h : xs.flatMap hexByte = ys.flatMap hexByte) :
    xs = ys := by
  induction xs generalizing ys with
  | nil =>
    cases ys with
    | nil => rfl
    | cons y ys => simp [hexByte] at h
  | cons x xs ih =>
    cases ys with
    | nil => simp [hexByte] at h
    | cons y ys =>
      rw [List.flatMap_cons, List.flatMap_cons] at h
      obtain ⟨hbyte, hrest⟩ := List.append_inj h rfl
      rw [hexByte_inj hbyte, ih hrest]

/-- The first digits are the digits of the first bytes. -/
theorem take_hexdigest (digest : List UInt8) (n : ℕ) :
    (hexdigest digest).toList.take (2 * n) = (digest.take n).flatMap hexByte := by
  show (String.ofList (digest.flatMap hexByte)).toList.take (2 * n) = _
  rw [String.toList_ofList]
  induction digest generalizing n with
  | nil => simp
  | cons b digest ih =>
    cases n with
    | zero => rfl
    | succ n =>
      rw [show 2 * (n + 1) = 2 * n + 1 + 1 by omega, List.take_succ_cons, List.flatMap_cons,
        List.flatMap_cons, ← ih]
      rfl

/-- The digests of the addresses, as they are typed, start with the same four bytes. -/
def Collide (rt : PyRuntime) (email email' : String) : Prop :=
  (rt.md5 email.toUTF8.toList).take 4 = (rt.md5 email'.toUTF8.toList).take 4

instance (rt : PyRuntime) (email email' : String) : Decidable (Collide rt email email') :=
  inferInstanceAs (Decidable (_ = _))

section Identity

variable {Token : Type} {env : SessionEnv Token}

/-- The user id is the first four bytes of the digest of the address. -/
theorem SessionEnv.userId_eq_iff {email email' : String} :
    env.userId email = env.userId email' ↔ Collide env.runtime email email' := by
  unfold SessionEnv.userId Collide
  rw [show (8 : ℕ) = 2 * 4 from rfl, take_hexdigest, take_hexdigest]
  constructor
  · intro h
    have hdigits := congrArg String.toList h
    simp only [String.toList_append, String.toList_ofList] at hdigits
    exact flatMap_hexByte_inj (List.append_cancel_left hdigits)
  · intro h
    rw [h]

/-! ## Two logins -/

/-- The principal the response of a login tells of. -/
def LoginResponse.principal (response : LoginResponse Token) : Principal :=
  ⟨response.userId, response.tenantId, response.roles⟩

/-- Nothing tells the two logins apart: the tokens stand for one principal, with one memory
and the same resources. -/
structure OneIdentity (env : SessionEnv Token) (first second : LoginResponse Token) : Prop where
  access : SamePrincipal env.jwt first.accessToken second.accessToken
  refresh : SamePrincipal env.jwt first.refreshToken second.refreshToken
  principal : second.principal = first.principal
  memory : ∀ (m : AgentMemory) (body : ChatRequest) (correlationId conversationId : String),
    m.getShortTerm (body.input second.principal correlationId conversationId) =
      m.getShortTerm (body.input first.principal correlationId conversationId)
  ownership : ∀ (body : ChatRequest) (correlationId conversationId : String) (arguments : Dict),
    ownsResource (body.toolContext second.principal correlationId conversationId) arguments =
      ownsResource (body.toolContext first.principal correlationId conversationId) arguments

/-- **When two logins give one identity.**  Two successful logins with addresses that select the
same account stand for the same user exactly when the addresses were typed alike, or their
digests happen to start alike. -/
theorem logins_oneIdentity_iff {W : Type} {now now' : ℤ} {body body' : LoginRequest}
    {w w' v v' : Audited W} {first second : LoginResponse Token}
    (hfirst : env.login now body w = (.ok first, w'))
    (hsecond : env.login now' body' v = (.ok second, v'))
    (hsame : env.runtime.lower body'.email = env.runtime.lower body.email) :
    OneIdentity env first second ↔
      body'.email = body.email ∨ Collide env.runtime body'.email body.email := by
  obtain ⟨demo, haccount, rfl⟩ := SessionEnv.login_response hfirst
  obtain ⟨demo', haccount', rfl⟩ := SessionEnv.login_response hsecond
  have hdemo : demo' = demo := by
    rw [SessionEnv.account?, hsame] at haccount'
    exact Option.some.inj (haccount'.symm.trans haccount)
  subst hdemo
  constructor
  · intro h
    exact .inr (SessionEnv.userId_eq_iff.1 (congrArg Principal.userId h.principal))
  · intro h
    have huser : env.userId body'.email = env.userId body.email := by
      obtain heq | hcollide := h
      · rw [heq]
      · exact SessionEnv.userId_eq_iff.2 hcollide
    refine ⟨?_, ?_, ?_, ?_, ?_⟩
    · dsimp only
      rw [samePrincipal_token_iff, huser]
    · dsimp only
      rw [samePrincipal_token_iff, huser]
    · simp only [LoginResponse.principal, huser]
    · intro m text correlationId conversationId
      simp only [LoginResponse.principal, huser]
    · intro text correlationId conversationId arguments
      simp only [LoginResponse.principal, huser]

/-! ## What two identities do not share -/

section Forks

variable {p p' : Principal}

theorem key_user_inj {tenantId userId userId' conversationId : String}
    (h : AgentMemory.key tenantId userId conversationId =
      AgentMemory.key tenantId userId' conversationId) : userId = userId' := by
  rw [← String.toList_inj] at h ⊢
  simpa [AgentMemory.key, toString, String.toList_append] using h

/-- What one user was told in a conversation, the other does not find there. -/
theorem memory_forks (htenant : p'.tenantId = p.tenantId) (huser : p'.userId ≠ p.userId)
    (m : AgentMemory) (body body' : ChatRequest) (correlationId correlationId' : String)
    (conversationId reply : String) :
    (m.append (body.input p correlationId conversationId) reply).getShortTerm
        (body'.input p' correlationId' conversationId) =
      m.getShortTerm (body'.input p' correlationId' conversationId) := by
  have hkey : AgentMemory.key p'.tenantId p'.userId conversationId ≠
      AgentMemory.key p.tenantId p.userId conversationId := by
    rw [htenant]
    exact fun h => huser (key_user_inj h)
  by_cases hempty : conversationId = ""
  · simp [AgentMemory.getShortTerm, ChatRequest.input, hempty]
  · simp [AgentMemory.getShortTerm, AgentMemory.append, ChatRequest.input, hempty,
      AgentMemory.messages_setMessages, hkey]

/-- What one user owns, the other does not. -/
theorem ownership_forks (huser : p'.userId ≠ p.userId) {body body' : ChatRequest}
    {correlationId conversationId correlationId' conversationId' : String} {arguments : Dict}
    (h : ownsResource (body.toolContext p correlationId conversationId) arguments = true) :
    ownsResource (body'.toolContext p' correlationId' conversationId') arguments = false := by
  rw [← Bool.not_eq_true]
  intro h'
  obtain ⟨-, howner⟩ := ownsResource_iff.1 h
  obtain ⟨-, howner'⟩ := ownsResource_iff.1 h'
  exact huser (Json.str.inj (howner'.symm.trans howner))

end Forks

end Identity

/-! ## Two spellings -/

/-- `hashlib.md5`, on two spellings of an address. -/
def spellingMd5 (bytes : List UInt8) : List UInt8 :=
  if bytes = "customer@demo.com".toUTF8.toList then
    [253, 238, 244, 145, 40, 26, 115, 165, 26, 15, 215, 218, 176, 61, 145, 115]
  else if bytes = "Customer@demo.com".toUTF8.toList then
    [30, 201, 29, 25, 140, 235, 89, 183, 87, 243, 222, 88, 240, 68, 69, 140]
  else List.replicate 16 0

/-- The endpoints with the account of the demonstration's customer. -/
def spellingSessions : SessionEnv Dict :=
  { customerSessions with runtime := { PyRuntime.ascii with md5 := spellingMd5 } }

/-- What the customer's login is answered with, by the spelling of the address. -/
def spellingLogin (email : String) : LoginResponse Dict where
  accessToken := (Mint.access (spellingSessions.userId email) "t_axisdemo" ["customer"]).token
    .unsigned {} 0
  refreshToken := (Mint.refresh (spellingSessions.userId email) "t_axisdemo").token .unsigned {} 0
  userId := spellingSessions.userId email
  tenantId := "t_axisdemo"
  roles := ["customer"]
  expiresIn := 900

theorem login_spelling {email : String}
    (h : spellingSessions.runtime.lower email = "customer@demo.com") :
    ∃ w' : Audited Unit, spellingSessions.login 0 ⟨email, "demo1234"⟩ ⟨(), {}⟩ =
      (.ok (spellingLogin email), w') := by
  have haccount : spellingSessions.account? email = some customerAccount := by
    rw [SessionEnv.account?, h]
    rfl
  have hverify : spellingSessions.verifyPassword "demo1234" customerAccount.password = true := by
    decide
  have hlogin : spellingSessions.login 0 ⟨email, "demo1234"⟩ (⟨(), {}⟩ : Audited Unit) = _ :=
    SessionEnv.login_of_verified haccount hverify rfl
  exact ⟨_, hlogin⟩

/-- Both spellings select the account. -/
theorem lower_spellings :
    spellingSessions.runtime.lower "customer@demo.com" = "customer@demo.com" ∧
      spellingSessions.runtime.lower "Customer@demo.com" = "customer@demo.com" := by
  decide +kernel

/-- The customer who capitalises the address is another user. -/
theorem spellings_fork :
    ∃ w w' : Audited Unit,
      spellingSessions.login 0 ⟨"customer@demo.com", "demo1234"⟩ ⟨(), {}⟩ =
        (.ok (spellingLogin "customer@demo.com"), w) ∧
      spellingSessions.login 0 ⟨"Customer@demo.com", "demo1234"⟩ ⟨(), {}⟩ =
        (.ok (spellingLogin "Customer@demo.com"), w') ∧
      spellingSessions.runtime.lower "Customer@demo.com" =
        spellingSessions.runtime.lower "customer@demo.com" ∧
      ¬ OneIdentity spellingSessions (spellingLogin "customer@demo.com")
        (spellingLogin "Customer@demo.com") := by
  obtain ⟨w, hw⟩ := login_spelling lower_spellings.1
  obtain ⟨w', hw'⟩ := login_spelling lower_spellings.2
  refine ⟨w, w', hw, hw', lower_spellings.2.trans lower_spellings.1.symm, fun h => ?_⟩
  have hcollide := SessionEnv.userId_eq_iff.1 (congrArg Principal.userId h.principal)
  revert hcollide
  decide +kernel

theorem spellings_oneIdentity_iff :
    OneIdentity spellingSessions (spellingLogin "customer@demo.com")
        (spellingLogin "Customer@demo.com") ↔
      "Customer@demo.com" = "customer@demo.com" ∨
        Collide spellingSessions.runtime "Customer@demo.com" "customer@demo.com" := by
  obtain ⟨w, hw⟩ := login_spelling lower_spellings.1
  obtain ⟨w', hw'⟩ := login_spelling lower_spellings.2
  exact logins_oneIdentity_iff hw hw' (lower_spellings.2.trans lower_spellings.1.symm)

end AgentPlatform
