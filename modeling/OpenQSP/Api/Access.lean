import OpenQSP.Api.App
import OpenQSP.Api.Ownership
import OpenQSP.Protocol.Fields

/-!
# Access to the Internet API

Whoever acts for a callsign over the API has logged in for it. The tokens that a run gives out are
access tokens of logins and cursors; no cursor is accepted as an access token, and an access token
only as long as its login says. A client has the tokens that it was given, or ones that do not
verify.

## Main definitions

* `APINode.withPresence` — the node with another presence registry
* `APINode.issued` — the tokens that a run has given out
* `Genuine` — nobody presents a token that he forged

## Main results

* `recordActivity_fst`, `recordActivity_snd` — what the middleware does
* `serverAfter_owned` — the sockets of a run
* `step_exchanges` — what a step adds to the exchanges
* `issued_spec` — what the tokens of a run say
* **`requests_authenticated`** — who is served
-/

namespace OpenQSP

namespace Api

variable {ω τ : Type} {api : APISetup ω τ} {outside : ω}

/-! ### Tokens -/

/-- The tokens that an exchange has given out. -/
def APIExchange.issued : APIExchange τ → List τ
  | .login _ _ _ (.ok (token, _)) => [token]
  | .request _ (.ok (.page _ (some cursor))) => [cursor]
  | .request _ (.ok (.synced _ cursor)) => [cursor]
  | _ => []

def APINode.issued (s : APINode ω τ) : List τ := s.exchanges.flatMap APIExchange.issued

/-- Every access token that is presented was given out before, or does not verify. -/
def Genuine (api : APISetup ω τ) (outside : ω) (inputs : List (Input τ)) : Prop :=
  ∀ earlier call later, inputs = earlier ++ .request call :: later →
    ∀ token, call.credentials = some token →
      token ∈ (serverAfter api outside earlier).issued ∨ api.signer.read token = none

/-- A token is for its callsign until it expires. -/
theorem user_eq_ok {credentials : Option τ} {now : ℤ} {callsign : Str} :
    api.user credentials now = .ok callsign ↔ ∃ token data, credentials = some token ∧
      api.signer.read token = some data ∧ data.kind = "access" ∧ now ≤ data.exp.getD 0 ∧
      data.sub = callsign := by
  rcases credentials with _ | token
  · simp [APISetup.user, fail]
  · simp only [APISetup.user, ofApi, APISetup.identity, Option.some.injEq]
    rcases hread : api.signer.read token with _ | data
    · simp [Except.mapError, hread]
    · by_cases hkind : data.kind = "access"
      · by_cases hexp : data.exp.getD 0 < now
        · simp [Except.mapError, hread, hkind, hexp]
        · simp [Except.mapError, hread, hkind, hexp, not_lt.mp hexp]
      · simp [Except.mapError, hread, hkind]

/-- A cursor is no access token. -/
theorem user_signCursor {claims : CursorClaims} (hkind : claims.kind ≠ "access") (now : ℤ) :
    ∀ callsign, api.user (some (api.signer.signCursor claims)) now ≠ .ok callsign := by
  intro callsign hok
  obtain ⟨token, data, htoken, hread, haccess, -⟩ := user_eq_ok.mp hok
  obtain rfl := Option.some.inj htoken
  rw [TokenSigner.signCursor, api.signer.read_sign] at hread
  obtain rfl := Option.some.inj hread
  exact hkind haccess

/-- An access token is for the callsign of its login, as long as the login says. -/
theorem user_access {callsign name : Str} {issued now : ℤ}
    (h : api.user (some (api.access name issued)) now = .ok callsign) :
    name = callsign ∧ now ≤ issued + api.lifetime := by
  obtain ⟨token, data, htoken, hread, -, hexp, hsub⟩ := user_eq_ok.mp h
  obtain rfl := Option.some.inj htoken
  rw [APISetup.access, api.signer.read_sign] at hread
  obtain rfl := Option.some.inj hread
  exact ⟨hsub, hexp⟩

theorem user_of_access {callsign : Str} {issued now : ℤ} (h : now ≤ issued + api.lifetime) :
    api.user (some (api.access callsign issued)) now = .ok callsign :=
  user_eq_ok.mpr ⟨_, _, rfl, api.signer.read_sign _, rfl, h, rfl⟩

theorem ofPy_eq_ok {α : Type} {x : Py α} {a : α} : ofPy x = .ok a ↔ x = .ok a := by
  cases x <;> simp [ofPy, Except.mapError]

theorem reply_bind_eq_ok {α β : Type} {x : Reply α} {f : α → Reply β} {b : β} :
    (x >>= f) = .ok b ↔ ∃ a, x = .ok a ∧ f a = .ok b := by
  cases x <;> simp [bind, Except.bind]

/-! ### What is noted -/

/-- The node with another presence registry. -/
def APINode.withPresence (s : APINode ω τ) (presence : PresenceRegistry) : APINode ω τ :=
  { s with sockets := { s.sockets with hub := { s.sockets.hub with presence } } }

section Noting

variable {s : APINode ω τ} {presence : PresenceRegistry} {callsign : Str} {call : APICall τ}
  {served : Reply (Response τ) × APINode ω τ} {response : Response τ}

@[simp] theorem withPresence_node : (s.withPresence presence).node = s.node := rfl

@[simp] theorem withPresence_conversationReads :
    (s.withPresence presence).conversationReads = s.conversationReads := rfl

@[simp] theorem withPresence_database : (s.withPresence presence).database = s.database := rfl

@[simp] theorem withPresence_exchanges : (s.withPresence presence).exchanges = s.exchanges := rfl

/-- Only the presence of the callsign changes. -/
theorem recordActivity_snd (callsign : Str) (served : Reply (Response τ) × APINode ω τ) :
    ∃ presence, (APISetup.recordActivity callsign served).2 = served.2.withPresence presence ∧
      ∀ other, other ≠ callsign →
        presence.get? other = served.2.sockets.hub.presence.get? other := by
  obtain ⟨_ | response, s⟩ := served
  · exact ⟨s.sockets.hub.presence, rfl, fun _ _ => rfl⟩
  · obtain ⟨presence, hhub, hothers⟩ :=
      HubSystem.recordInternetActivity_snd callsign s.sockets.hub
    refine ⟨presence, ?_, hothers⟩
    rw [APISetup.recordActivity, APINode.withPresence, ← hhub]

/-- The response stays, unless the registry refuses the callsign. -/
theorem recordActivity_fst (h : served.2.sockets.Owned) (callsign : Str) :
    (APISetup.recordActivity callsign served).1 = (do
      let response ← served.1
      ofPy ((validateCallsign callsign "callsign").map fun _ => response)) := by
  obtain ⟨_ | response, s⟩ := served
  · rfl
  · rw [APISetup.recordActivity]
    dsimp only
    rw [h.recordInternetActivity_fst]
    cases validateCallsign callsign "callsign" <;> rfl

theorem recordActivity_of_valid (h : served.2.sockets.Owned) (hvalid : ValidCallsign callsign) :
    (APISetup.recordActivity callsign served).1 = served.1 := by
  rw [recordActivity_fst h, (validateCallsign_iff "callsign").mpr hvalid]
  cases served.1 <;> rfl

theorem recordActivity_eq_ok
    (h : (APISetup.recordActivity callsign served).1 = .ok response) :
    served.1 = .ok response := by
  obtain ⟨_ | response', s⟩ := served
  · cases h
  · rw [APISetup.recordActivity] at h
    dsimp only at h ⊢
    split at h
    · cases h
    · exact h

/-- Sending changes the node, and nothing beside it. -/
theorem send_snd (api : APISetup ω τ) (callsign recipient body key : Str) (now : ℤ)
    (s : APINode ω τ) :
    ∃ node, (api.send callsign recipient body key now s).2 = { s with node } := by
  rw [APISetup.send]
  split
  · exact ⟨s.node, rfl⟩
  · exact ⟨_, rfl⟩

/-- What happens between the two reads of `/sync` is what others send. -/
theorem sync_snd (cursor : Option τ) (meanwhile : List SendCall) (s : APINode ω τ) :
    (api.sync callsign cursor meanwhile s).2 = { s with
      node := meanwhile.foldl
        (fun node call => ((sendMessage api.listeners call).run node).2) s.node } := by
  rw [APISetup.sync]
  split
  · rfl
  · dsimp only
    split
    · rfl
    · rfl

/-- The handlers do nothing to the sockets. -/
theorem serve_sockets (api : APISetup ω τ) (callsign : Str) (call : APICall τ) (s : APINode ω τ) :
    (api.serve callsign call s).2.sockets = s.sockets ∧
      (api.serve callsign call s).2.exchanges = s.exchanges := by
  rw [APISetup.serve]
  split
  · exact ⟨rfl, rfl⟩
  · next recipient body key hrequest =>
    obtain ⟨node, hnode⟩ := send_snd api callsign recipient body key call.now s
    rw [hnode]
    exact ⟨rfl, rfl⟩
  · exact ⟨rfl, rfl⟩
  · exact ⟨rfl, rfl⟩
  · exact ⟨rfl, rfl⟩
  · rw [APISetup.markRead]
    split
    · exact ⟨rfl, rfl⟩
    · exact ⟨rfl, rfl⟩
  · rw [sync_snd]
    exact ⟨rfl, rfl⟩

theorem respond_of_user (huser : api.user call.credentials call.now = .ok callsign)
    (s : APINode ω τ) :
    api.respond call s = APISetup.recordActivity callsign (api.serve callsign call s) := by
  rw [APISetup.respond, huser]

/-- A request is refused, or served for a callsign, whose presence may change. -/
theorem respond_cases (api : APISetup ω τ) (call : APICall τ) (s : APINode ω τ) :
    (∃ e, api.user call.credentials call.now = .error e ∧ api.respond call s = (.error e, s)) ∨
    ∃ callsign presence, api.user call.credentials call.now = .ok callsign ∧
      (api.respond call s).2 = (api.serve callsign call s).2.withPresence presence := by
  rcases huser : api.user call.credentials call.now with e | callsign
  · left
    refine ⟨e, rfl, ?_⟩
    rw [APISetup.respond, huser]
  · right
    obtain ⟨presence, hnode, -⟩ := recordActivity_snd callsign (api.serve callsign call s)
    refine ⟨callsign, presence, rfl, ?_⟩
    rw [respond_of_user huser, hnode]

/-- A response is that of the handler. -/
theorem respond_eq_ok (h : (api.respond call s).1 = .ok response) : ∃ callsign presence,
    api.user call.credentials call.now = .ok callsign ∧
    (api.serve callsign call s).1 = .ok response ∧
    (api.respond call s).2 = (api.serve callsign call s).2.withPresence presence := by
  rcases respond_cases api call s with ⟨e, -, heq⟩ | ⟨callsign, presence, huser, hnode⟩
  · rw [heq] at h
    cases h
  · rw [respond_of_user huser] at h
    exact ⟨callsign, presence, huser, recordActivity_eq_ok h, hnode⟩

theorem respond_of_valid (hs : s.sockets.Owned) (hvalid : ValidCallsign callsign)
    (huser : api.user call.credentials call.now = .ok callsign) :
    (api.respond call s).1 = (api.serve callsign call s).1 := by
  rw [respond_of_user huser, recordActivity_of_valid _ hvalid]
  rw [(serve_sockets api callsign call s).1]
  exact hs

/-- Nobody is answered in a name that the registry refuses. -/
theorem valid_of_respond (hs : s.sockets.Owned)
    (huser : api.user call.credentials call.now = .ok callsign)
    (h : (api.respond call s).1 = .ok response) : ValidCallsign callsign := by
  have howned : (api.serve callsign call s).2.sockets.Owned :=
    (serve_sockets api callsign call s).1 ▸ hs
  rw [respond_of_user huser, recordActivity_fst howned] at h
  obtain ⟨_, -, h⟩ := reply_bind_eq_ok.mp h
  obtain ⟨callsign', hcallsign, -⟩ := Py.map_eq_ok.mp (ofPy_eq_ok.mp h)
  rcases PresenceRegistry.validateCallsign_cases callsign with haccepts | ⟨e, he⟩
  · exact (validateCallsign_iff "callsign").mp haccepts
  · cases he.symm.trans hcallsign

end Noting

/-! ### The exchanges -/

theorem respond_exchanges (call : APICall τ) (s : APINode ω τ) :
    (api.respond call s).2.exchanges = s.exchanges := by
  rcases respond_cases api call s with ⟨e, -, heq⟩ | ⟨callsign, presence, -, hnode⟩
  · rw [heq]
  · rw [hnode]
    exact (serve_sockets api callsign call s).2

/-- What a step asks and answers. -/
def newExchange (api : APISetup ω τ) (s : APINode ω τ) : Input τ → Option (APIExchange τ)
  | .login callsign password now =>
    some (.login callsign password now (api.login callsign password now s.accounts))
  | .request call => some (.request call (api.respond call s).1)
  | _ => none

theorem step_exchanges (s : APINode ω τ) (input : Input τ) :
    (step api s input).exchanges = s.exchanges ++ (newExchange api s input).toList := by
  cases input with
  | login callsign password now => rfl
  | request call =>
    show (api.respond call s).2.exchanges ++ _ = _
    rw [respond_exchanges]
    rfl
  | send call => exact (List.append_nil _).symm
  | database change keeps => exact (List.append_nil _).symm
  | account callsign password salt now => exact (List.append_nil _).symm
  | socket action => exact (List.append_nil _).symm

theorem serverAfter_concat (inputs : List (Input τ)) (input : Input τ) :
    serverAfter api outside (inputs ++ [input]) =
      step api (serverAfter api outside inputs) input := by
  simp [serverAfter]

theorem issued_concat (inputs : List (Input τ)) (input : Input τ) :
    (serverAfter api outside (inputs ++ [input])).issued =
      (serverAfter api outside inputs).issued ++
        (newExchange api (serverAfter api outside inputs) input).toList.flatMap
          APIExchange.issued := by
  rw [serverAfter_concat, APINode.issued, step_exchanges, List.flatMap_append]
  rfl

/-- The sockets of a run are as the hub keeps them. -/
theorem serverAfter_owned (inputs : List (Input τ)) :
    (serverAfter api outside inputs).sockets.Owned := by
  induction inputs using List.reverseRecOn with
  | nil => exact HubSystem.Owned.start
  | append_singleton inputs input ih =>
    rw [serverAfter_concat]
    cases input with
    | login callsign password now => exact ih
    | request call =>
      show (api.respond call _).2.sockets.Owned
      rcases huser : api.user call.credentials call.now with e | callsign
      · rw [APISetup.respond, huser]
        exact ih
      · rw [respond_of_user huser, APISetup.recordActivity]
        have hsockets := serve_sockets api callsign call (serverAfter api outside inputs)
        rw [← hsockets.1] at ih
        split
        · exact ih
        · exact ih.recordInternetActivity callsign
    | send call => exact ih
    | database change keeps => exact ih
    | account callsign password salt now => exact ih
    | socket action =>
      show (((serverAfter api outside inputs).sockets.step action).getD _).Owned
      rcases hstep : (serverAfter api outside inputs).sockets.step action with _ | sockets
      · exact ih
      · exact ih.step hstep

/-! ### What a response gives out -/

/-- A cursor for a page or for `/sync`. -/
def IsCursor (signer : TokenSigner τ) (token : τ) : Prop :=
  ∃ claims : CursorClaims, claims.kind ≠ "access" ∧ token = signer.signCursor claims

theorem page_ne_access : "page" ≠ "access" := by decide

theorem sync_ne_access : "sync" ≠ "access" := by decide

theorem listMessages_eq_ok {callsign : Str} {limit : ℤ} {cursor : Option τ} {peer : Option Str}
    {d : Database} {response : Response τ}
    (h : api.listMessages callsign limit cursor peer d = .ok response) :
    (1 ≤ limit ∧ limit ≤ 200) ∧ ∃ after peer' values more messages,
      api.after cursor callsign "page" = .ok after ∧ api.peer peer = .ok peer' ∧
      apiListWith callsign after limit.toNat peer' d.toTables = .ok (values, more) ∧
      values.mapM (project d) = .ok messages ∧
      response = .page messages (if more then values.getLast?.map fun last =>
        api.signer.cursors.cursor callsign last.apiSequence "page" else none) := by
  rw [APISetup.listMessages] at h
  split at h
  · cases h
  · next hlimit =>
    refine ⟨not_not.mp hlimit, ?_⟩
    obtain ⟨after, hafter, h⟩ := reply_bind_eq_ok.mp h
    obtain ⟨peer', hpeer, h⟩ := reply_bind_eq_ok.mp h
    obtain ⟨⟨values, more⟩, hvalues, h⟩ := reply_bind_eq_ok.mp h
    obtain ⟨messages, hmessages, h⟩ := reply_bind_eq_ok.mp h
    exact ⟨after, peer', values, more, messages, hafter, hpeer, ofPy_eq_ok.mp hvalues,
      ofPy_eq_ok.mp hmessages, (Except.ok.inj h).symm⟩

theorem syncPage_eq_ok {callsign : Str} {after : ℤ} {high : ℕ} {d : Database}
    {response : Response τ} (h : api.syncPage callsign after high d = .ok response) :
    ∃ values more messages, apiList callsign after syncLimit d.toTables = .ok (values, more) ∧
      values.mapM (project d) = .ok messages ∧
      ∃ position, response =
        .synced messages (api.signer.cursors.cursor callsign position "sync") := by
  rw [APISetup.syncPage] at h
  obtain ⟨⟨values, more⟩, hvalues, h⟩ := reply_bind_eq_ok.mp h
  obtain ⟨messages, hmessages, h⟩ := reply_bind_eq_ok.mp h
  exact ⟨values, more, messages, ofPy_eq_ok.mp hvalues, ofPy_eq_ok.mp hmessages, _,
    (Except.ok.inj h).symm⟩

theorem sync_eq_ok {callsign : Str} {cursor : Option τ} {meanwhile : List SendCall}
    {s : APINode ω τ} {response : Response τ}
    (h : (api.sync callsign cursor meanwhile s).1 = .ok response) :
    ∃ after high, api.syncPage callsign after high
      (api.sync callsign cursor meanwhile s).2.database = .ok response := by
  rw [APISetup.sync] at h ⊢
  split at h
  · cases h
  · next after hafter =>
    dsimp only at h ⊢
    split at h
    · cases h
    · next hhigh =>
      rw [if_neg hhigh]
      exact ⟨_, _, h⟩

/-- Of the handlers only pages and `/sync` give out tokens, and these are cursors. -/
theorem serve_issued {callsign : Str} {call : APICall τ} {s : APINode ω τ} {token : τ}
    (h : token ∈ (APIExchange.request call (api.serve callsign call s).1).issued) :
    IsCursor api.signer token := by
  rcases hresult : (api.serve callsign call s).1 with e | response
  · rw [hresult] at h
    cases h
  rw [hresult] at h
  rw [APISetup.serve] at hresult
  split at hresult
  · obtain rfl := Except.ok.inj hresult
    cases h
  · next recipient body key hrequest =>
    dsimp only [APISetup.send] at hresult
    split at hresult
    · cases hresult
    · dsimp only at hresult
      split at hresult
      · cases hresult
      · obtain ⟨message, -, rfl⟩ := Py.map_eq_ok.mp (ofPy_eq_ok.mp hresult)
        cases h
  · next limit cursor peer hrequest =>
    obtain ⟨-, after, peer', values, more, messages, -, -, -, -, rfl⟩ := listMessages_eq_ok hresult
    rcases hlast : (if more then values.getLast?.map fun last : StoredMessage =>
      api.signer.cursors.cursor callsign last.apiSequence "page" else none) with _ | cursor'
    · rw [hlast] at h
      cases h
    · rw [hlast] at h
      obtain rfl := List.mem_singleton.mp h
      split at hlast
      · obtain ⟨last, -, rfl⟩ := Option.map_eq_some_iff.mp hlast
        exact ⟨⟨"page", callsign, last.apiSequence⟩, page_ne_access, rfl⟩
      · cases hlast
  · next id hrequest =>
    obtain ⟨⟨recipient, sequence⟩, -, hresult⟩ := reply_bind_eq_ok.mp hresult
    obtain ⟨value, -, hresult⟩ := reply_bind_eq_ok.mp hresult
    rcases value with _ | value
    · cases hresult
    · dsimp only at hresult
      split at hresult
      · cases hresult
      · obtain ⟨message, -, hresult⟩ := reply_bind_eq_ok.mp hresult
        obtain rfl := Except.ok.inj hresult
        cases h
  · obtain ⟨list, -, hresult⟩ := reply_bind_eq_ok.mp hresult
    obtain ⟨summaries, -, hresult⟩ := reply_bind_eq_ok.mp hresult
    obtain rfl := Except.ok.inj hresult
    cases h
  · rw [APISetup.markRead] at hresult
    split at hresult
    · dsimp only at hresult
      split at hresult
      · cases hresult
      · cases hresult
    · obtain ⟨result, -, rfl⟩ := Py.map_eq_ok.mp (ofPy_eq_ok.mp hresult)
      cases h
  · next cursor meanwhile hrequest =>
    obtain ⟨after, high, hpage⟩ := sync_eq_ok hresult
    obtain ⟨values, more, messages, -, -, position, rfl⟩ := syncPage_eq_ok hpage
    obtain rfl := List.mem_singleton.mp h
    exact ⟨⟨"sync", callsign, position⟩, sync_ne_access, rfl⟩

/-- A login that was successful, and the accounts that it was checked against. -/
structure LoggedIn (api : APISetup ω τ) (outside : ω) (inputs : List (Input τ)) (callsign : Str)
    (issued : ℤ) : Prop where
  login : ∃ earlier name password later, inputs = earlier ++ .login name password issued :: later ∧
    api.store.authenticate name password (serverAfter api outside earlier).accounts = .ok callsign

theorem LoggedIn.append {inputs : List (Input τ)} {callsign : Str} {issued : ℤ}
    (h : LoggedIn api outside inputs callsign issued) (later : List (Input τ)) :
    LoggedIn api outside (inputs ++ later) callsign issued := by
  obtain ⟨earlier, name, password, between, rfl, hauthenticate⟩ := h.login
  exact ⟨earlier, name, password, between ++ later, by simp, hauthenticate⟩

/-- The tokens of a run are the access tokens of its logins, and cursors. -/
theorem issued_spec (inputs : List (Input τ)) :
    ∀ token ∈ (serverAfter api outside inputs).issued, IsCursor api.signer token ∨
      ∃ callsign issued, LoggedIn api outside inputs callsign issued ∧
        token = api.access callsign issued := by
  induction inputs using List.reverseRecOn with
  | nil =>
    intro token h
    cases h
  | append_singleton inputs input ih =>
    intro token htoken
    rw [issued_concat] at htoken
    rcases List.mem_append.mp htoken with hold | hnew
    · refine (ih token hold).imp_right ?_
      rintro ⟨callsign, issued, hlogin, rfl⟩
      exact ⟨callsign, issued, hlogin.append [input], rfl⟩
    · cases input with
      | login name password now =>
        right
        simp only [newExchange, Option.toList_some, List.flatMap_singleton] at hnew
        rcases hresult : api.login name password now (serverAfter api outside inputs).accounts with
          e | ⟨token', callsign⟩
        · rw [hresult] at hnew
          cases hnew
        · rw [hresult] at hnew
          obtain rfl := List.mem_singleton.mp hnew
          rw [APISetup.login] at hresult
          split at hresult
          · next callsign' hauthenticate =>
            obtain ⟨rfl, rfl⟩ := Prod.mk.inj (Except.ok.inj hresult)
            exact ⟨callsign', now, ⟨inputs, name, password, [], rfl, hauthenticate⟩, rfl⟩
          · split at hresult
            · cases hresult
            · cases hresult
      | request call =>
        left
        simp only [newExchange, Option.toList_some, List.flatMap_singleton] at hnew
        rcases hresult : (api.respond call (serverAfter api outside inputs)).1 with e | response
        · rw [hresult] at hnew
          cases hnew
        · obtain ⟨callsign, -, -, hserve, -⟩ := respond_eq_ok hresult
          rw [hresult, ← hserve] at hnew
          exact serve_issued hnew
      | send call => cases hnew
      | database change keeps => cases hnew
      | account name password salt now => cases hnew
      | socket action => cases hnew

/-- Whoever is served has logged in. -/
theorem loggedIn_of_user {inputs earlier later : List (Input τ)} {call : APICall τ}
    (hgenuine : Genuine api outside inputs) (hinputs : inputs = earlier ++ .request call :: later)
    {callsign : Str} (hserved : api.user call.credentials call.now = .ok callsign) :
    ∃ issued, LoggedIn api outside earlier callsign issued ∧
      call.credentials = some (api.access callsign issued) ∧ call.now ≤ issued + api.lifetime := by
  obtain ⟨token, data, htoken, hread, -⟩ := user_eq_ok.mp hserved
  rcases hgenuine earlier call later hinputs token htoken with hissued | hnone
  · rw [htoken] at hserved
    rcases issued_spec earlier token hissued with ⟨claims, hkind, rfl⟩ |
      ⟨name, issued, hlogin, rfl⟩
    · exact absurd hserved (user_signCursor hkind call.now callsign)
    · obtain ⟨rfl, hnow⟩ := user_access hserved
      exact ⟨issued, hlogin, htoken, hnow⟩
  · cases hnone.symm.trans hread

/-- **Who is served.** In every run in which nobody presents a forged access token: a request is
served for a callsign exactly if it carries an access token for this callsign that has not expired,
and somebody had logged in as this callsign, with a password that the account store accepted, when
the token was made. -/
theorem requests_authenticated {inputs earlier later : List (Input τ)} {call : APICall τ}
    (hgenuine : Genuine api outside inputs) (hinputs : inputs = earlier ++ .request call :: later)
    (callsign : Str) : api.user call.credentials call.now = .ok callsign ↔
      ∃ issued, LoggedIn api outside earlier callsign issued ∧
        call.credentials = some (api.access callsign issued) ∧
        call.now ≤ issued + api.lifetime := by
  constructor
  · intro hserved
    exact loggedIn_of_user hgenuine hinputs hserved
  · rintro ⟨issued, -, hcredentials, hnow⟩
    rw [hcredentials]
    exact user_of_access hnow

theorem genuine_nil : Genuine api outside [] := by
  intro earlier call later h
  cases earlier <;> cases h

/-- The tokens of a step were given out before it. -/
theorem Genuine.concat {inputs : List (Input τ)} {input : Input τ}
    (h : Genuine api outside inputs)
    (hinput : ∀ call token, input = .request call → call.credentials = some token →
      token ∈ (serverAfter api outside inputs).issued ∨ api.signer.read token = none) :
    Genuine api outside (inputs ++ [input]) := by
  intro earlier call later hinputs token htoken
  rcases List.eq_nil_or_concat' later with rfl | ⟨later, last, rfl⟩
  · obtain ⟨rfl, hlast⟩ := List.append_inj' hinputs rfl
    exact hinput call token (List.head_eq_of_cons_eq hlast) htoken
  · rw [← List.cons_append, ← List.append_assoc] at hinputs
    obtain ⟨hinputs, -⟩ := List.append_inj' hinputs rfl
    exact h earlier call later hinputs token htoken

theorem parseInt_ascii (text : Str) (_ : text.length ≤ 4300) (_ : ∀ c ∈ text, c.code < 128) :
    parseInt text = parseInt text := rfl

theorem some_id (payload : Payload) : some (id payload) = some payload := rfl

/-- Tokens that are their payloads, and a key derivation that keeps the password. -/
def plainAPI : APISetup Unit Payload where
  signer := ⟨id, some, some_id⟩
  lifetime := 3600
  store := ⟨fun secret _ _ => secret, UnicodeTables.ascii⟩
  integers := ⟨parseInt, parseInt_ascii⟩
  digest _ _ := []
  listeners := []

/-- An account, and a login for it. -/
def sampleLogin : List (Input Payload) :=
  [.account (str "EA1ABC") (str "secret") [] 0, .login (str "EA1ABC") (str "secret") 1000]

/-- A message that is sent with the token of this login. -/
def sampleSend : APICall Payload where
  credentials := some (plainAPI.access (str "EA1ABC") 1000)
  request := .send (str "k1xyz") (str "73") (str "key")
  now := 1001

theorem issued_sampleLogin : (serverAfter plainAPI () sampleLogin).issued =
    [plainAPI.access (str "EA1ABC") 1000] := by
  decide +kernel

theorem genuine_sampleLogin : Genuine plainAPI () sampleLogin := by
  refine (genuine_nil.concat ?_).concat ?_
  · rintro call token ⟨⟩
  · rintro call token ⟨⟩

theorem genuine_sampleSend : Genuine plainAPI () (sampleLogin ++ [.request sampleSend]) := by
  refine genuine_sampleLogin.concat ?_
  rintro call token ⟨⟩ htoken
  left
  rw [issued_sampleLogin]
  exact List.mem_singleton.mpr (Option.some.inj htoken).symm

theorem requests_authenticated_sampleSend : ∃ issued,
    LoggedIn plainAPI () sampleLogin (str "EA1ABC") issued ∧
      sampleSend.credentials = some (plainAPI.access (str "EA1ABC") issued) ∧
      sampleSend.now ≤ issued + plainAPI.lifetime :=
  (requests_authenticated genuine_sampleSend rfl (str "EA1ABC")).mp rfl

end Api

end OpenQSP
