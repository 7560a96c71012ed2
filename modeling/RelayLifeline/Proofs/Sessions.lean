import Mathlib.Data.List.Induction
import RelayLifeline.Admin.Sessions

/-!
# Where access comes from

Whoever is let in by a session was given it: for a key, or for an identity of a
sign-in that was begun here. The proof goes back over what has happened. A
session in the map has been issued, and used in time ever since; an identity
that waits for its session was vouched for in a callback; a transaction in the
map was begun, and no callback has had it. Each is an invariant over the events
so far, and a step adds one event to them.
-/

namespace RelayLifeline.Admin

open Journal Lib

/-! ## Maps with a bound -/

section Bound

variable {α : Type} [Keyed α String] {time : α → Int} {stale : α → Bool} {rank : String → Nat}
  {limit : Nat} {t : Table α} {a b : α}

/-- The loop finds an entry that no other is older than. -/
theorem oldest_spec {items : List α} (hne : items ≠ []) (hkeys : ∀ a ∈ items, key a ≠ "") :
    ∃ a ∈ items, oldest time items = (key a, time a) ∧ ∀ b ∈ items, time a ≤ time b := by
  induction items using List.reverseRecOn with
  | nil => exact absurd rfl hne
  | append_singleton items a ih =>
      by_cases hnil : items = []
      · subst hnil
        refine ⟨a, List.mem_singleton_self a, ?_, fun b hb => ?_⟩
        · rw [List.nil_append, oldest, List.foldl_cons, if_pos (.inl rfl), List.foldl_nil]
        · rw [List.mem_singleton.1 hb]
      · obtain ⟨low, hlow, heq, hleast⟩ :=
          ih hnil fun b hb => hkeys b (List.mem_append_left _ hb)
        have hnamed : key low ≠ "" := hkeys low (List.mem_append_left _ hlow)
        rw [oldest, List.foldl_concat, ← oldest, heq]
        by_cases hless : time a < time low
        · refine ⟨a, by simp, if_pos (.inr hless), fun b hb => ?_⟩
          rcases List.mem_append.1 hb with hb | hb
          · exact (Int.le_of_lt hless).trans (hleast b hb)
          · rw [List.mem_singleton.1 hb]
        · refine ⟨low, List.mem_append_left _ hlow, if_neg (not_or.2 ⟨hnamed, hless⟩), ?_⟩
          intro b hb
          rcases List.mem_append.1 hb with hb | hb
          · exact hleast b hb
          · rw [List.mem_singleton.1 hb]
            exact Int.not_lt.1 hless

/-- Where an entry is evicted, none is older. -/
theorem evictOldest_spec (hne : t.items ≠ []) (hkeys : ∀ a ∈ t.items, key a ≠ "") :
    ∃ a ∈ t.items, evictOldest time rank t = t.erase (key a) ∧ ∀ b ∈ t.items, time a ≤ time b := by
  have hperm := List.perm_insertionSort (fun a b : α => rank (key a) ≤ rank (key b)) t.items
  have hmem : ∀ a, a ∈ t.items.insertionSort (fun a b : α => rank (key a) ≤ rank (key b)) ↔
      a ∈ t.items := fun a => hperm.mem_iff
  obtain ⟨a, ha, heq, hleast⟩ := @oldest_spec α _ time
    (t.items.insertionSort fun a b : α => rank (key a) ≤ rank (key b))
    (fun hnil => hne (List.eq_nil_of_length_eq_zero (by rw [← hperm.length_eq, hnil]; rfl)))
    (fun a ha => hkeys a ((hmem a).1 ha))
  refine ⟨a, (hmem a).1 ha, ?_, fun b hb => hleast b ((hmem b).2 hb)⟩
  rw [evictOldest, heq]

theorem length_erase (ha : a ∈ t.items) : (t.erase (key a)).items.length + 1 = t.items.length := by
  obtain ⟨front, back, hsplit⟩ := List.append_of_mem ha
  rw [Table.items_erase_of_split hsplit, hsplit, List.length_append, List.length_append,
    List.length_cons]
  omega

theorem length_set_le (t : Table α) (a : α) : (t.set a).items.length ≤ t.items.length + 1 := by
  cases hget : t.get? (key a) with
  | none =>
      rw [Table.items_set_of_none hget, List.length_append]
      rfl
  | some b =>
      rw [Table.items_set_of_some hget, List.length_map]
      omega

/-- What is not stale is kept, but for the oldest of it where the map is full. -/
theorem makeRoom_spec (hkeys : ∀ a ∈ t.items, key a ≠ "") (hlimit : 0 < limit) :
    (t.filter fun a => !stale a).items.length < limit ∧
        makeRoom limit stale time rank t = t.filter (fun a => !stale a) ∨
      limit ≤ (t.filter fun a => !stale a).items.length ∧
        ∃ a ∈ (t.filter fun a => !stale a).items,
          makeRoom limit stale time rank t = (t.filter fun a => !stale a).erase (key a) ∧
            ∀ b ∈ (t.filter fun a => !stale a).items, time a ≤ time b := by
  rw [makeRoom]
  by_cases hfull : limit ≤ (t.filter fun a => !stale a).items.length
  · have hne : (t.filter fun a => !stale a).items ≠ [] := by
      intro hnil
      rw [hnil, List.length_nil] at hfull
      omega
    rw [if_pos hfull]
    exact .inr ⟨hfull, evictOldest_spec hne fun a ha => hkeys a (Table.mem_filter.1 ha).1⟩
  · rw [if_neg hfull]
    exact .inl ⟨Nat.not_le.1 hfull, rfl⟩

theorem mem_makeRoom (h : b ∈ (makeRoom limit stale time rank t).items) : b ∈ t.items := by
  rw [makeRoom] at h
  split at h
  · exact (Table.mem_filter.1 (Table.mem_erase.1 h).1).1
  · exact (Table.mem_filter.1 h).1

/-- What goes for it is stale, or the oldest of a full map. -/
theorem evicted_makeRoom (hlimit : 0 < limit) (hkeys : ∀ a ∈ t.items, key a ≠ "")
    (ha : a ∈ t.items) (hfresh : stale a = false)
    (hgone : a ∉ (makeRoom limit stale time rank t).items) :
    limit ≤ (t.items.filter fun a => !stale a).length ∧
      ∀ b ∈ t.items, stale b = false → time a ≤ time b := by
  have hkept : ∀ {b : α}, b ∈ t.items → stale b = false →
      b ∈ (t.filter fun a => !stale a).items := by
    intro b hb hfresh
    exact Table.mem_filter.2 ⟨hb, by rw [hfresh]; rfl⟩
  rcases @makeRoom_spec _ _ time stale rank _ _ hkeys hlimit with
    ⟨-, heq⟩ | ⟨hfull, low, hlow, heq, hleast⟩
  · rw [heq] at hgone
    exact absurd (hkept ha hfresh) hgone
  · obtain rfl : a = low := by
      by_contra hne
      refine hgone ?_
      rw [heq]
      refine Table.mem_erase.2 ⟨hkept ha hfresh, fun hkey => hne ?_⟩
      exact Table.key_injOn t.nodup ha (Table.mem_filter.1 hlow).1 hkey
    exact ⟨hfull, fun b hb hfresh => hleast b (hkept hb hfresh)⟩

end Bound

/-! ## Tokens -/

theorem hex_ne_empty {bytes : List UInt8} (h : bytes ≠ []) : hex bytes ≠ "" := by
  intro heq
  have hlen := (toList_hex bytes).1
  rw [heq, String.toList_empty, List.length_nil] at hlen
  have hpos := List.length_pos_of_ne_nil h
  omega

theorem Random.bytes_ne_nil (r : Random) : r.bytes ≠ [] := by
  intro hnil
  have hsized := r.sized
  rw [hnil] at hsized
  cases hsized

theorem Random.token_ne_empty (r : Random) : r.token ≠ "" := hex_ne_empty r.bytes_ne_nil

/-! ## What has happened -/

/-- The event is about the session with the token, or about its cookie. -/
def AccessEvent.Concerns (token : String) : AccessEvent → Prop
  | .issued session _ _ => session.token = token
  | .revoked gone => gone = token
  | .answered request _ _ _ _ => request.cookie = some token
  | _ => False

/-- Since the session was issued nothing but requests that it let in have
concerned it, and each of them came in time. -/
inductive Uses (issued : ManagementSession) : List AccessEvent → ManagementSession → Prop
  | nil : Uses issued [] issued
  | other {events : List AccessEvent} {session : ManagementSession} {event : AccessEvent}
      (h : Uses issued events session) (hother : ¬event.Concerns session.token) :
      Uses issued (events ++ [event]) session
  | use {events : List AccessEvent} {session : ManagementSession} {request : Request}
      {now idleTimeout : Int} {answer : Answer} (h : Uses issued events session)
      (hcookie : request.cookie = some session.token)
      (hfresh : session.stale now idleTimeout = false) :
      Uses issued
        (events ++ [.answered request now idleTimeout (some { session with lastSeen := now })
          answer])
        { session with lastSeen := now }

/-- Only the time it was last seen changes. -/
theorem Uses.same {issued session : ManagementSession} {events : List AccessEvent}
    (h : Uses issued events session) :
    { session with lastSeen := issued.lastSeen } = issued := by
  induction h with
  | nil => rfl
  | other _ _ ih => exact ih
  | use _ _ _ ih => exact ih

/-- The session has been issued, and used in time ever since. -/
def Established (events : List AccessEvent) (session : ManagementSession) : Prop :=
  ∃ before issued c grant after, events = before ++ .issued issued c grant :: after ∧
    Uses issued after session

theorem Established.other {events : List AccessEvent} {session : ManagementSession} {event : AccessEvent}
    (h : Established events session) (hother : ¬event.Concerns session.token) :
    Established (events ++ [event]) session := by
  obtain ⟨before, issued, c, grant, after, rfl, huses⟩ := h
  exact ⟨before, issued, c, grant, after ++ [event], by simp, huses.other hother⟩

theorem Established.use {events : List AccessEvent} {session : ManagementSession} {request : Request}
    {now idleTimeout : Int} (h : Established events session)
    (hcookie : request.cookie = some session.token) (hfresh : session.stale now idleTimeout = false)
    (answer : Answer) :
    Established (events ++ [.answered request now idleTimeout (some { session with lastSeen := now })
      answer]) { session with lastSeen := now } := by
  obtain ⟨before, issued, c, grant, after, rfl, huses⟩ := h
  refine ⟨before, issued, c, grant, _, ?_, @Uses.use _ _ _ _ _ _ answer huses hcookie hfresh⟩
  rw [List.append_assoc, List.cons_append]

/-! ## One step -/

theorem mem_create {sessions : Table ManagementSession} {c : Creation}
    {session other : ManagementSession} (h : other ∈ (create sessions c session).items) :
    other = session ∨ other ∈ sessions.items ∧ other.token ≠ session.token := by
  rcases Table.mem_set.1 h with rfl | ⟨hmem, hne⟩
  · exact .inl rfl
  · exact .inr ⟨mem_makeRoom hmem, hne⟩

/-- What `authenticate` finds of a cookie. -/
theorem authenticate_cases (sessions : Table ManagementSession) (cookie : Option String)
    (now timeout : Int) :
    ((authenticate sessions cookie now timeout).2.1 = none ∧
        ∀ session ∈ (authenticate sessions cookie now timeout).1.items,
          session ∈ sessions.items ∧ (session.token ≠ "" → cookie ≠ some session.token)) ∨
      ∃ session ∈ sessions.items, cookie = some session.token ∧ session.token ≠ "" ∧
        session.stale now timeout = false ∧
        authenticate sessions cookie now timeout =
          (sessions.set { session with lastSeen := now }, some { session with lastSeen := now },
            .active) := by
  rw [authenticate]
  dsimp only
  split
  next hempty =>
    refine .inl ⟨rfl, fun session hmem => ⟨hmem, fun hne hcookie => hne ?_⟩⟩
    rwa [hcookie] at hempty
  next hvalue =>
    obtain ⟨value, rfl⟩ : ∃ value, cookie = some value := by
      cases cookie with
      | none => exact absurd rfl hvalue
      | some value => exact ⟨value, rfl⟩
    have herased : ∀ session ∈ (sessions.erase value).items,
        session ∈ sessions.items ∧ (session.token ≠ "" → some value ≠ some session.token) := by
      intro session hmem
      obtain ⟨hmem, hne⟩ := Table.mem_erase.1 hmem
      exact ⟨hmem, fun _ heq => hne (Option.some.inj heq).symm⟩
    split
    next => exact .inl ⟨rfl, herased⟩
    next session hget =>
      split
      next => exact .inl ⟨rfl, herased⟩
      next hfresh =>
        obtain ⟨hmem, rfl⟩ := Table.get?_eq_some.1 hget
        exact .inr ⟨session, hmem, rfl, hvalue, Bool.eq_false_iff.2 hfresh, rfl⟩

namespace Access

variable {cfg : AccessConfig}

theorem step_callback (a : Access) {c : Callback} (h : c.admissible = true) :
    a.step cfg (.callback c) =
      ({ a with
          transactions := a.transactions.erase c.state
          identities := a.identities ++
            ((a.transactions.get? c.state).bind (c.identify cfg.oidc)).toList },
        .called c (a.transactions.get? c.state)
          ((a.transactions.get? c.state).bind (c.identify cfg.oidc))) := by
  rw [step, h]
  rfl

/-- What `ServeHTTP` answers with the session that it finds. -/
def answerOf (cfg : AccessConfig) (a : Access) (request : Request) (now idleTimeout : Int) :
    Answer :=
  serveHTTP cfg.auth request (authenticate a.sessions request.cookie now idleTimeout).2.1
    (authenticate a.sessions request.cookie now idleTimeout).2.2

theorem step_request (a : Access) {request : Request} (h : request.isOpen = false)
    (now idleTimeout : Int) :
    a.step cfg (.request request now idleTimeout) =
      ({ a with
          sessions := (authenticate a.sessions request.cookie now idleTimeout).1
          leaving := a.leaving ++
            (if request.isLogout ∧ (answerOf cfg a request now idleTimeout).isServed then
              (authenticate a.sessions request.cookie now idleTimeout).2.1.map
                ManagementSession.token
            else none).toList },
        .answered request now idleTimeout
          (authenticate a.sessions request.cookie now idleTimeout).2.1
          (answerOf cfg a request now idleTimeout)) := by
  rw [step, h]
  rfl

/-- What a step can do. -/
inductive Moves (cfg : AccessConfig) (a : Access) : Access → AccessEvent → Prop
  | nothing : Moves cfg a a .nothing
  | login (provided : String) (c : Creation) (role : Role)
      (hkey : cfg.auth.authenticateKey provided = some role) :
      Moves cfg a { a with sessions := create a.sessions c (c.session role "local" "" 0) }
        (.issued (c.session role "local" "" 0) c (.key provided))
  | begun (b : Beginning) :
      Moves cfg a { a with transactions := Admin.begin a.transactions b } (.begun b)
  | refused (c : Callback) : Moves cfg a a (.called c none none)
  | called (c : Callback) (taken : Option OidcTransaction) (identity : Option OidcIdentity)
      (htaken : a.transactions.get? c.state = taken)
      (hidentity : taken.bind (c.identify cfg.oidc) = identity) :
      Moves cfg a
        { a with
          transactions := a.transactions.erase c.state
          identities := a.identities ++ identity.toList }
        (.called c taken identity)
  | complete (i : Nat) (c : Creation) (identity : OidcIdentity)
      (hget : a.identities[i]? = some identity) :
      Moves cfg a
        { a with
          sessions := create a.sessions c
            (c.session identity.role "oidc" identity.principalID identity.expiresAt)
          identities := a.identities.eraseIdx i }
        (.issued (c.session identity.role "oidc" identity.principalID identity.expiresAt) c
          (.identity identity))
  | answered (request : Request) (now idleTimeout : Int) (session : Option ManagementSession)
      (answer : Answer)
      (hsession : (authenticate a.sessions request.cookie now idleTimeout).2.1 = session)
      (hanswer : answerOf cfg a request now idleTimeout = answer) :
      Moves cfg a
        { a with
          sessions := (authenticate a.sessions request.cookie now idleTimeout).1
          leaving := a.leaving ++
            (if request.isLogout ∧ answer.isServed then session.map ManagementSession.token
            else none).toList }
        (.answered request now idleTimeout session answer)
  | revoked (i : Nat) (token : String) (hget : a.leaving[i]? = some token) :
      Moves cfg a
        { a with sessions := a.sessions.erase token, leaving := a.leaving.eraseIdx i }
        (.revoked token)

theorem moves_step (a : Access) (input : AccessInput) :
    Moves cfg a (a.step cfg input).1 (a.step cfg input).2 := by
  cases input with
  | login provided c =>
      rw [step]
      split
      next => exact .nothing
      next role hkey => exact .login provided c role hkey
  | begin b => exact .begun b
  | callback c =>
      cases hadmissible : c.admissible with
      | false =>
          rw [step, hadmissible]
          exact .refused c
      | true =>
          rw [step_callback a hadmissible]
          exact .called c _ _ rfl rfl
  | complete i c =>
      rw [step]
      split
      next => exact .nothing
      next identity hget => exact .complete i c identity hget
  | request request now idleTimeout =>
      cases hopen : request.isOpen with
      | true =>
          rw [step, hopen]
          exact .nothing
      | false =>
          rw [step_request a hopen]
          exact .answered request now idleTimeout _ _ rfl rfl
  | revoke i =>
      rw [step]
      split
      next => exact .nothing
      next token hget => exact .revoked i token hget

/-- What every step keeps holds after every run. -/
theorem run_induction {P : List AccessEvent → Access → Prop} (hstart : P [] {})
    (hstep : ∀ inputs a' event, P (events cfg inputs) (run cfg inputs) →
      Moves cfg (run cfg inputs) a' event → P (events cfg inputs ++ [event]) a')
    (inputs : List AccessInput) : P (events cfg inputs) (run cfg inputs) := by
  induction inputs using List.reverseRecOn with
  | nil => exact hstart
  | append_singleton inputs input ih =>
      have hnext := hstep inputs _ _ ih (moves_step _ input)
      rw [events, outputs_concat, run, List.foldl_concat]
      exact hnext

/-- An event has happened in a step of a run, after the events before it. -/
theorem moves_split {inputs : List AccessInput} {before after : List AccessEvent}
    {event : AccessEvent} (h : events cfg inputs = before ++ event :: after) :
    ∃ inputs' a', events cfg inputs' = before ∧ Moves cfg (run cfg inputs') a' event := by
  obtain ⟨inputs', input, hbefore, hevent⟩ := outputs_split h
  have hmoves := @moves_step cfg (run cfg inputs') input
  exact ⟨inputs', _, hbefore, hevent ▸ hmoves⟩

/-- How a session comes to be there after a step: it was there and the step was
not about it, or it was issued in the step, or the step has let it in. -/
inductive Carried (a : Access) (event : AccessEvent) (session : ManagementSession) : Prop
  | kept (hmem : session ∈ a.sessions.items) (hother : ¬event.Concerns session.token)
  | issued (c : Creation) (grant : Grant) (hevent : event = .issued session c grant)
      (hnamed : session.token ≠ "")
  | used (before : ManagementSession) (hmem : before ∈ a.sessions.items) (request : Request)
      (now idleTimeout : Int) (answer : Answer) (hsession : session = { before with lastSeen := now })
      (hcookie : request.cookie = some before.token) (hfresh : before.stale now idleTimeout = false)
      (hevent : event = .answered request now idleTimeout (some session) answer)

theorem carried_create {a : Access} {c : Creation} {role : Role} {authMethod principalID : String}
    {expiresAt : Int} (grant : Grant) {session : ManagementSession}
    (hmem : session ∈
      (create a.sessions c (c.session role authMethod principalID expiresAt)).items) :
    Carried a (.issued (c.session role authMethod principalID expiresAt) c grant) session := by
  rcases mem_create hmem with rfl | ⟨hmem, hne⟩
  · exact .issued c grant rfl c.token.token_ne_empty
  · exact .kept hmem fun hconcerns => hne hconcerns.symm

/-- **What a step does to the sessions.** -/
theorem Moves.carried {a a' : Access} {event : AccessEvent} (h : Moves cfg a a' event)
    (hnamed : ∀ s ∈ a.sessions.items, s.token ≠ "") :
    ∀ session ∈ a'.sessions.items, Carried a event session := by
  intro session hmem
  cases h with
  | login provided => exact carried_create (.key provided) hmem
  | complete i c identity => exact carried_create (.identity identity) hmem
  | answered request now idleTimeout found answer hsession =>
      rcases authenticate_cases a.sessions request.cookie now idleTimeout with
        ⟨-, hkept⟩ | ⟨before, hbefore, hcookie, -, hfresh, heq⟩
      · obtain ⟨hold, hother⟩ := hkept session hmem
        exact .kept hold (hother (hnamed session hold))
      · rw [heq] at hmem hsession
        rcases Table.mem_set.1 hmem with rfl | ⟨hold, hne⟩
        · exact .used before hbefore request now idleTimeout _ rfl hcookie hfresh
            (by rw [← hsession])
        · refine .kept hold fun hconcerns => hne ?_
          have hsame : some session.token = some before.token := hconcerns.symm.trans hcookie
          exact Option.some.inj hsame
  | revoked i token hget =>
      obtain ⟨hmem, hne⟩ := Table.mem_erase.1 hmem
      exact .kept hmem fun hconcerns => hne hconcerns.symm
  | _ => exact .kept hmem id

/-! ## Sessions -/

/-- Every session that is in the map has a name and has been used in time. -/
theorem established_run (inputs : List AccessInput) :
    ∀ session ∈ (run cfg inputs).sessions.items,
      session.token ≠ "" ∧ Established (events cfg inputs) session := by
  refine @run_induction cfg
    (fun past a => ∀ session ∈ a.sessions.items, session.token ≠ "" ∧ Established past session)
    (fun session hmem => absurd hmem List.not_mem_nil) ?_ inputs
  intro inputs a' event ih hmoves session hmem
  cases hmoves.carried (fun s hs => (ih s hs).1) session hmem with
  | kept hold hother => exact ⟨(ih session hold).1, (ih session hold).2.other hother⟩
  | issued c grant hevent hnamed =>
      rw [hevent]
      exact ⟨hnamed, _, session, c, grant, [], rfl, .nil⟩
  | used before hbefore request now idleTimeout answer hsession hcookie hfresh hevent =>
      rw [hevent, hsession]
      exact ⟨(ih before hbefore).1, (ih before hbefore).2.use hcookie hfresh answer⟩

/-! ## Identities -/

/-- An identity that waits for its session was vouched for in a callback. -/
def Vouched (events : List AccessEvent) (identity : OidcIdentity) : Prop :=
  ∃ c taken, AccessEvent.called c taken (some identity) ∈ events

theorem vouched_run (inputs : List AccessInput) :
    ∀ identity ∈ (run cfg inputs).identities, Vouched (events cfg inputs) identity := by
  refine @run_induction cfg (fun past a => ∀ identity ∈ a.identities, Vouched past identity)
    (fun identity hmem => absurd hmem List.not_mem_nil) ?_ inputs
  intro inputs a' event ih hmoves identity hmem
  have hold : identity ∈ (run cfg inputs).identities →
      Vouched (events cfg inputs ++ [event]) identity := by
    intro hmem
    obtain ⟨c, taken, hevent⟩ := ih identity hmem
    exact ⟨c, taken, List.mem_append_left _ hevent⟩
  cases hmoves with
  | called c taken found htaken hidentity =>
      rcases List.mem_append.1 hmem with hmem | hnew
      · exact hold hmem
      · refine ⟨c, taken, List.mem_append_right _ (List.mem_singleton.2 ?_)⟩
        rw [Option.mem_def.1 (Option.mem_toList.1 hnew)]
  | complete i c other hget => exact hold (List.mem_of_mem_eraseIdx hmem)
  | _ => exact hold hmem

/-- What a session was created for, and what it has of it. -/
inductive Granted (cfg : AccessConfig) (past : List AccessEvent) (session : ManagementSession) :
    Grant → Prop
  | key (provided : String) (hkey : cfg.auth.authenticateKey provided = some session.role) :
      Granted cfg past session (.key provided)
  | identity (identity : OidcIdentity) (hvouched : Vouched past identity)
      (hrole : session.role = identity.role) (hprincipal : session.principalID = identity.principalID)
      (hexpiry : identity.expiresAt ≠ 0 → session.expiresAt ≤ identity.expiresAt) :
      Granted cfg past session (.identity identity)

theorem expiresAt_session_le (c : Creation) (role : Role) (authMethod principalID : String)
    (expiresAt : Int) :
    (c.session role authMethod principalID expiresAt).expiresAt ≤ c.now + c.maxLifetime ∧
      (expiresAt ≠ 0 → (c.session role authMethod principalID expiresAt).expiresAt ≤ expiresAt) := by
  rw [Creation.session]
  dsimp only
  split <;> omega

theorem granted_run {inputs : List AccessInput} {past rest : List AccessEvent}
    {session : ManagementSession} {c : Creation} {grant : Grant}
    (h : events cfg inputs = past ++ .issued session c grant :: rest) :
    Granted cfg past session grant ∧ session.expiresAt ≤ c.now + c.maxLifetime := by
  obtain ⟨inputs', a', rfl, hmoves⟩ := moves_split h
  cases hmoves with
  | login provided c role hkey =>
      exact ⟨.key provided hkey, (expiresAt_session_le c role "local" "" 0).1⟩
  | complete i c identity hget =>
      obtain ⟨hlifetime, hexpiry⟩ :=
        expiresAt_session_le c identity.role "oidc" identity.principalID identity.expiresAt
      have hvouched := vouched_run inputs' identity (List.mem_of_getElem? hget)
      exact ⟨.identity identity hvouched rfl rfl hexpiry, hlifetime⟩

/-! ## Requests -/

/-- By what right a request is served: it has a key, or it has the cookie of a
session that was issued to it and that has been used in time ever since. -/
inductive Admitted (cfg : AccessConfig) (past : List AccessEvent) (request : Request)
    (now idleTimeout : Int) (role : Role) : Option ManagementSession → Prop
  | bearer (hkey : cfg.auth.authenticate request = some role) :
      Admitted cfg past request now idleTimeout role none
  | session (before after : List AccessEvent) (issued last : ManagementSession) (c : Creation)
      (grant : Grant) (hpast : past = before ++ .issued issued c grant :: after)
      (hgranted : Granted cfg before issued grant)
      (hlifetime : issued.expiresAt ≤ c.now + c.maxLifetime) (huses : Uses issued after last)
      (hcookie : request.cookie = some issued.token) (hrole : role = issued.role)
      (hidle : now - last.lastSeen ≤ idleTimeout) (hexpiry : now < issued.expiresAt)
      (hcsrf : request.method ≠ "GET" → secureEqual request.csrfToken issued.csrf = true) :
      Admitted cfg past request now idleTimeout role (some { last with lastSeen := now })

theorem serveHTTP_served {auth : Authenticator} {request : Request}
    {session : Option ManagementSession} {state : CookieState} {role : Role}
    (h : serveHTTP auth request session state = .served role) :
    (session.map ManagementSession.role <|> auth.authenticate request) = some role ∧
      role.allows (requiredRole request) = true ∧
      ∀ s ∈ session, request.method ≠ "GET" → secureEqual request.csrfToken s.csrf = true := by
  rw [serveHTTP] at h
  split at h
  next => cases h
  next role' hrole =>
    split at h
    next => cases h
    next hcsrf =>
      split at h
      next => cases h
      next hallows =>
        cases h
        refine ⟨hrole, by simpa using hallows, fun s hs hmethod => ?_⟩
        by_contra hne
        refine hcsrf ⟨hmethod, ?_⟩
        rw [Option.mem_def.1 hs, Option.any_some, Bool.eq_false_iff.2 hne]
        rfl

theorem admitted_of_answered (inputs : List AccessInput) {request : Request} {now idleTimeout : Int}
    {session : Option ManagementSession} {role : Role}
    (hsession : (authenticate (run cfg inputs).sessions request.cookie now idleTimeout).2.1 = session)
    (hanswer : answerOf cfg (run cfg inputs) request now idleTimeout = .served role) :
    role.allows (requiredRole request) = true ∧
      Admitted cfg (events cfg inputs) request now idleTimeout role session := by
  rw [answerOf] at hanswer
  obtain ⟨hrole, hallows, hcsrf⟩ := serveHTTP_served hanswer
  refine ⟨hallows, ?_⟩
  subst hsession
  rcases authenticate_cases (run cfg inputs).sessions request.cookie now idleTimeout with
    ⟨hnone, -⟩ | ⟨last, hlast, hcookie, -, hfresh, heq⟩
  · rw [hnone] at hrole ⊢
    exact .bearer hrole
  · rw [heq] at hrole hcsrf ⊢
    obtain ⟨before, issued, c, grant, after, hpast, huses⟩ := (established_run inputs last hlast).2
    obtain ⟨hgranted, hlifetime⟩ := granted_run hpast
    have hsame := huses.same
    rw [ManagementSession.mk.injEq] at hsame
    obtain ⟨htoken, hrole', hcsrf', -, hexpires, -, -⟩ := hsame
    have hfresh' : ¬idleTimeout < now - last.lastSeen ∧ now < last.expiresAt := by
      simpa [ManagementSession.stale] using hfresh
    refine .session before after issued last c grant hpast hgranted hlifetime huses
      (htoken ▸ hcookie) ?_ (not_lt.1 hfresh'.1) (hexpires ▸ hfresh'.2) ?_
    · rw [← hrole']
      exact (Option.some.inj hrole).symm
    · intro hmethod
      rw [← hcsrf']
      exact hcsrf { last with lastSeen := now } rfl hmethod

/-- **Whom a request is served for.** In every run, a request is served only in
a role that may do what it asks for, and for a key of that role or in a session
of that role: issued to its cookie, for such a key or for an identity vouched
for before, not revoked since, never left for longer than it may be, not at its
end, and, where the request changes something, with its CSRF token. -/
theorem admitted_of_served (inputs : List AccessInput) {input : AccessInput} {request : Request}
    {now idleTimeout : Int} {session : Option ManagementSession} {role : Role}
    (h : ((run cfg inputs).step cfg input).2 =
      .answered request now idleTimeout session (.served role)) :
    role.allows (requiredRole request) = true ∧
      Admitted cfg (events cfg inputs) request now idleTimeout role session := by
  have hmoves := @moves_step cfg (run cfg inputs) input
  rw [h] at hmoves
  generalize ((run cfg inputs).step cfg input).1 = a' at hmoves
  cases hmoves with
  | answered _ _ _ _ _ hsession hanswer => exact admitted_of_answered inputs hsession hanswer

/-- One key and one provider, for the examples of runs. -/
def sample : AccessConfig where
  auth := ⟨true, "", "operator key", ""⟩
  oidc := ⟨"https://issuer", "role", [], ["operators"], []⟩

def sampleRandom (byte : UInt8) : Random := ⟨List.replicate 32 byte, rfl⟩

def sampleCreation : Creation := ⟨1000, 500, 100, fun _ => 0, sampleRandom 1, sampleRandom 2⟩

/-- The session of the key. -/
def sampleSession : ManagementSession := sampleCreation.session .operator "local" "" 0

def sampleLogin : AccessInput := .login "operator key" sampleCreation

theorem authenticateKey_sample : sample.auth.authenticateKey "operator key" = some .operator := by
  simp [Authenticator.authenticateKey, sample, secureEqual]

theorem step_sampleLogin :
    step sample {} sampleLogin =
      ({ sessions := create ∅ sampleCreation sampleSession },
        .issued sampleSession sampleCreation (.key "operator key")) := by
  rw [sampleLogin, step, authenticateKey_sample]
  rfl

theorem run_sampleLogin :
    run sample [sampleLogin] = { sessions := create ∅ sampleCreation sampleSession } := by
  rw [run, List.foldl_cons, step_sampleLogin, List.foldl_nil]

def sampleRequest : Request := { method := "GET", urlPath := "/admin/api/status", cookie := some sampleSession.token }

theorem admitted_of_served_sample :
    Role.allows .operator (requiredRole sampleRequest) = true ∧
      Admitted sample (events sample [sampleLogin]) sampleRequest 1050 100 .operator
        (some { sampleSession with lastSeen := 1050 }) :=
  @admitted_of_served sample [sampleLogin] (.request sampleRequest 1050 100) sampleRequest 1050 100
    _ .operator (by rw [run_sampleLogin]; rfl)

/-! ## Callbacks -/

/-- The event begins a sign-in with the state, or takes it. -/
def Takes (state : String) : AccessEvent → Prop
  | .begun b => b.state.urlToken = state
  | .called c taken _ => c.state = state ∧ taken.isSome
  | _ => False

/-- The transaction has been begun, and no callback has taken it. -/
def Begun (events : List AccessEvent) (transaction : OidcTransaction) : Prop :=
  ∃ before b after, events = before ++ .begun b :: after ∧ transaction = b.transaction ∧
    ∀ event ∈ after, ¬Takes transaction.state event

theorem Begun.other {events : List AccessEvent} {transaction : OidcTransaction}
    {event : AccessEvent} (h : Begun events transaction) (hother : ¬Takes transaction.state event) :
    Begun (events ++ [event]) transaction := by
  obtain ⟨before, b, after, rfl, rfl, hafter⟩ := h
  refine ⟨before, b, after ++ [event], by simp, rfl, fun other hmem => ?_⟩
  rcases List.mem_append.1 hmem with hmem | hmem
  · exact hafter other hmem
  · rwa [List.mem_singleton.1 hmem]

theorem begun_run (inputs : List AccessInput) :
    ∀ transaction ∈ (run cfg inputs).transactions.items,
      Begun (events cfg inputs) transaction := by
  refine @run_induction cfg (fun past a => ∀ transaction ∈ a.transactions.items,
    Begun past transaction) (fun transaction hmem => absurd hmem List.not_mem_nil) ?_ inputs
  intro inputs a' event ih hmoves transaction hmem
  have hother : transaction ∈ (run cfg inputs).transactions.items →
      ¬Takes transaction.state event → Begun (events cfg inputs ++ [event]) transaction :=
    fun hmem hother => (ih transaction hmem).other hother
  cases hmoves with
  | begun b =>
      rcases Table.mem_set.1 hmem with rfl | ⟨hold, hne⟩
      · exact ⟨_, b, [], rfl, rfl, fun _ hnil => absurd hnil List.not_mem_nil⟩
      · exact hother (mem_makeRoom hold) fun htakes => hne htakes.symm
  | refused c => exact hother hmem fun htakes => absurd htakes.2 Bool.false_ne_true
  | called c =>
      obtain ⟨hold, hne⟩ := Table.mem_erase.1 hmem
      exact hother hold fun htakes => hne htakes.1.symm
  | _ => exact hother hmem id

/-- The values a role is given for. -/
def valuesFor (cfg : OIDCConfig) : Role → List String
  | .viewer => cfg.viewerValues
  | .operator => cfg.operatorValues
  | .sensitive => cfg.sensitiveValues

/-- The role is the highest that a value of the claim is listed for. -/
theorem mapOIDCRole_eq_some {claims : List (String × Claim)} {cfg : OIDCConfig} {role : Role}
    (h : mapOIDCRole claims cfg = some role) :
    ∃ values, (nestedClaim claims cfg.roleClaim).bind oidcClaimValues = some values ∧
      matchesOIDCValue values (valuesFor cfg role) = true ∧
      ∀ other, matchesOIDCValue values (valuesFor cfg other) = true → other.rank ≤ role.rank := by
  obtain ⟨values, hvalues, hrole⟩ := Option.bind_eq_some_iff.1 h
  refine ⟨values, hvalues, ?_⟩
  split at hrole
  next hsensitive =>
    cases hrole
    refine ⟨hsensitive, fun other _ => ?_⟩
    cases other <;> decide
  next hsensitive =>
    split at hrole
    next hoperator =>
      cases hrole
      refine ⟨hoperator, fun other hother => ?_⟩
      cases other with
      | sensitive => exact absurd hother hsensitive
      | viewer => exact Nat.le_succ 1
      | operator => exact le_rfl
    next hoperator =>
      split at hrole
      next hviewer =>
        cases hrole
        refine ⟨hviewer, fun other hother => ?_⟩
        cases other with
        | sensitive => exact absurd hother hsensitive
        | operator => exact absurd hother hoperator
        | viewer => exact le_rfl
      next => cases hrole

/-- What a callback has made sure of where it vouches for an identity. -/
structure Identified (cfg : OIDCConfig) (c : Callback) (b : Beginning) (identity : OidcIdentity) :
    Prop where
  state : c.state = b.state.urlToken
  inTime : c.now < b.now + oidcTransactionTTL
  browser : sha256 (utf8 (c.cookie.getD "")) = sha256 (utf8 b.browserToken.urlToken)
  idToken : ∃ raw idToken claims values,
    c.provider.exchange c.code b.verifier.urlToken = some raw ∧
      c.provider.verify raw = some idToken ∧ idToken.nonce = b.nonce.urlToken ∧
      idToken.subject ≠ "" ∧ identity.principalID = principalID cfg idToken.subject ∧
      c.later < idToken.expiry ∧ identity.expiresAt = idToken.expiry ∧
      idToken.claims = some claims ∧
      (nestedClaim claims cfg.roleClaim).bind oidcClaimValues = some values ∧
      matchesOIDCValue values (valuesFor cfg identity.role) = true ∧
      ∀ role, matchesOIDCValue values (valuesFor cfg role) = true →
        role.rank ≤ identity.role.rank

theorem identified_of_identify {cfg : OIDCConfig} {c : Callback} {b : Beginning}
    {identity : OidcIdentity} (hstate : c.state = b.state.urlToken)
    (h : c.identify cfg b.transaction = some identity) : Identified cfg c b identity := by
  rw [Callback.identify] at h
  split at h
  next => cases h
  next htime =>
    split at h
    next => cases h
    next hbrowser =>
      obtain ⟨idToken, htoken, h⟩ := Option.bind_eq_some_iff.1 h
      split at h
      next => cases h
      next hchecks =>
        obtain ⟨claims, hclaims, h⟩ := Option.bind_eq_some_iff.1 h
        obtain ⟨role, hrole, rfl⟩ := Option.map_eq_some_iff.1 h
        obtain ⟨values, hvalues, hmatches, hhighest⟩ := mapOIDCRole_eq_some hrole
        obtain ⟨raw, hraw, hverify⟩ := Option.bind_eq_some_iff.1 htoken
        rw [not_or, not_or, not_not] at hchecks
        obtain ⟨hnonce, hsubject, hexpiry⟩ := hchecks
        have hintime : c.now < b.transaction.expiresAt := by simpa using htime
        refine ⟨hstate, hintime, not_not.1 hbrowser, raw, idToken, claims, values, hraw,
          ?_, hnonce, hsubject, rfl, by simpa using hexpiry, rfl, hclaims, hvalues, hmatches,
          hhighest⟩
        split at hverify
        next => cases hverify
        next => exact hverify

/-- **Whom a callback vouches for.** In every run, a callback that ends with an
identity takes a sign-in that was begun before it, that no callback has had and
that is not ten minutes old, from the browser it was begun in. The provider gave
the ID token for its code and its verifier, the token is still good and has its
nonce, and the role is the highest that the claims are listed for. -/
theorem identified_of_called {inputs : List AccessInput} {past rest : List AccessEvent}
    {c : Callback} {taken : Option OidcTransaction} {identity : OidcIdentity}
    (h : events cfg inputs = past ++ .called c taken (some identity) :: rest) :
    ∃ before b after, past = before ++ .begun b :: after ∧
      (∀ event ∈ after, ¬Takes c.state event) ∧ Identified cfg.oidc c b identity := by
  obtain ⟨inputs', a', rfl, hmoves⟩ := moves_split h
  cases hmoves with
  | called _ _ _ htaken hidentity =>
      obtain ⟨transaction, rfl, hidentify⟩ := Option.bind_eq_some_iff.1 hidentity
      obtain ⟨hmem, hkey⟩ := Table.get?_eq_some.1 htaken
      obtain ⟨before, b, after, hpast, rfl, hafter⟩ := begun_run inputs' transaction hmem
      refine ⟨before, b, after, hpast, fun event hevent => ?_,
        identified_of_identify hkey.symm hidentify⟩
      rw [← hkey]
      exact hafter event hevent

def sampleBeginning : Beginning :=
  ⟨1000, fun _ => 0, sampleRandom 3, sampleRandom 4, sampleRandom 5, sampleRandom 6⟩

/-- The provider knows one code. -/
def sampleProvider : Provider where
  exchange code verifier :=
    if code = "code" ∧ verifier = sampleBeginning.verifier.urlToken then some "token" else none
  verify raw :=
    if raw = "token" then
      some ⟨sampleBeginning.nonce.urlToken, "subject", 2000, some [("role", .text "operators")]⟩
    else none

def sampleCallback : Callback where
  state := sampleBeginning.state.urlToken
  code := "code"
  cookie := some sampleBeginning.browserToken.urlToken
  now := 1100
  later := 1101
  provider := sampleProvider

def sampleIdentity : OidcIdentity := ⟨.operator, principalID sample.oidc "subject", 2000⟩

theorem identify_sample :
    sampleCallback.identify sample.oidc sampleBeginning.transaction = some sampleIdentity := by
  have htoken : sampleCallback.idToken sampleBeginning.transaction =
      some ⟨sampleBeginning.nonce.urlToken, "subject", 2000, some [("role", .text "operators")]⟩ := by
    simp only [Callback.idToken, sampleCallback, sampleProvider, Beginning.transaction]
    rfl
  have hrole : mapOIDCRole [("role", .text "operators")] sample.oidc = some .operator := by rfl
  rw [Callback.identify, if_neg (by decide), if_neg (by simp [sampleCallback, Beginning.transaction]),
    htoken, Option.bind_some, if_neg (by simp [sampleCallback, Beginning.transaction]),
    Option.bind_some, hrole]
  rfl

theorem events_sampleCallback :
    events sample [.begin sampleBeginning, .callback sampleCallback] =
      [.begun sampleBeginning] ++
        .called sampleCallback (some sampleBeginning.transaction) (some sampleIdentity) :: [] := by
  have hget : (step sample {} (.begin sampleBeginning)).1.transactions.get? sampleCallback.state =
      some sampleBeginning.transaction := by rfl
  rw [events, outputs, outputs, step_callback _ (by rfl), hget, Option.bind_some, identify_sample]
  rfl

theorem identified_of_called_sample :
    ∃ before b after, [AccessEvent.begun sampleBeginning] = before ++ .begun b :: after ∧
      (∀ event ∈ after, ¬Takes sampleCallback.state event) ∧
      Identified sample.oidc sampleCallback b sampleIdentity :=
  @identified_of_called sample [.begin sampleBeginning, .callback sampleCallback] _ [] _ _ _
    events_sampleCallback

/-! ## How many -/

def isBegun : AccessEvent → Bool
  | .begun _ => true
  | _ => false

def isTaken : AccessEvent → Bool
  | .called _ taken _ => taken.isSome
  | _ => false

def isIdentified : AccessEvent → Bool
  | .called _ _ identity => identity.isSome
  | _ => false

def isIssuedForIdentity : AccessEvent → Bool
  | .issued _ _ (.identity _) => true
  | _ => false

/-- How many of the events so far are of a kind. -/
def count (cfg : AccessConfig) (p : AccessEvent → Bool) (inputs : List AccessInput) : Nat :=
  (events cfg inputs).countP p

theorem length_makeRoom_le {α : Type} [Keyed α String] {time : α → Int} {stale : α → Bool}
    {rank : String → Nat} {limit : Nat} {t : Table α} :
    (makeRoom limit stale time rank t).items.length ≤ t.items.length := by
  have hkept : (t.filter fun a => !stale a).items.length ≤ t.items.length :=
    List.length_filter_le _ _
  rw [makeRoom]
  split
  next => exact (List.length_filter_le _ _).trans hkept
  next => exact hkept

/-- **A sign-in is good for one session.** In every run, of the sign-ins that
were begun a part has been taken by a callback, of those a part ended with an
identity, and every identity has its one session or waits for it. -/
theorem sessions_le_begun (inputs : List AccessInput) :
    count cfg isIssuedForIdentity inputs + (run cfg inputs).identities.length =
        count cfg isIdentified inputs ∧
      count cfg isIdentified inputs ≤ count cfg isTaken inputs ∧
      count cfg isTaken inputs + (run cfg inputs).transactions.items.length ≤
        count cfg isBegun inputs := by
  refine @run_induction cfg (fun past a =>
    past.countP isIssuedForIdentity + a.identities.length = past.countP isIdentified ∧
      past.countP isIdentified ≤ past.countP isTaken ∧
      past.countP isTaken + a.transactions.items.length ≤ past.countP isBegun)
    ⟨rfl, le_rfl, le_rfl⟩ ?_ inputs
  intro inputs a' event h hmoves
  obtain ⟨hidentities, hidentified, htransactions⟩ := h
  simp only [List.countP_append, List.countP_singleton]
  cases hmoves with
  | begun b =>
      have hset := length_set_le (makeRoom maxOIDCTransactions
        (fun transaction => !(b.now < transaction.expiresAt)) OidcTransaction.expiresAt b.rank
        (run cfg inputs).transactions) b.transaction
      have hroom := hset.trans (Nat.succ_le_succ length_makeRoom_le)
      refine ⟨hidentities, hidentified, ?_⟩
      simp only [isTaken, isBegun, Bool.false_eq_true, if_false, if_true]
      exact (Nat.add_le_add_left hroom _).trans (Nat.succ_le_succ htransactions)
  | called c taken identity htaken hidentity =>
      cases taken with
      | none =>
          cases hidentity
          have hle : ((run cfg inputs).transactions.erase c.state).items.length ≤
              (run cfg inputs).transactions.items.length := List.length_filter_le _ _
          refine ⟨?_, hidentified, ?_⟩
          · simpa [isIssuedForIdentity, isIdentified] using hidentities
          · exact (Nat.add_le_add_left hle _).trans htransactions
      | some transaction =>
          obtain ⟨hmem, hkey⟩ := Table.get?_eq_some.1 htaken
          have herase := length_erase hmem
          rw [hkey] at herase
          cases identity <;>
            simp [isIssuedForIdentity, isIdentified, isTaken, isBegun] <;> omega
  | complete i c identity hget =>
      have hlt : i < (run cfg inputs).identities.length := (List.getElem?_eq_some_iff.1 hget).1
      refine ⟨?_, hidentified, htransactions⟩
      simp only [isIssuedForIdentity, isIdentified, if_true, List.length_eraseIdx, hlt]
      simp
      omega
  | _ => exact ⟨hidentities, hidentified, htransactions⟩

/-! ## How a session ends -/

/-- Why a session goes in a step. -/
inductive Ended (a : Access) (session : ManagementSession) : AccessEvent → Prop
  | stale (other : ManagementSession) (c : Creation) (grant : Grant)
      (hstale : session.stale c.now c.idleTimeout = true) : Ended a session (.issued other c grant)
  | evicted (other : ManagementSession) (c : Creation) (grant : Grant)
      (hfull : maxManagementSessions ≤
        (a.sessions.items.filter fun s => !s.stale c.now c.idleTimeout).length)
      (holdest : ∀ s ∈ a.sessions.items, s.stale c.now c.idleTimeout = false →
        session.lastSeen ≤ s.lastSeen) : Ended a session (.issued other c grant)
  | expired (request : Request) (now idleTimeout : Int) (found : Option ManagementSession)
      (answer : Answer) (hcookie : request.cookie = some session.token)
      (hstale : session.stale now idleTimeout = true) :
      Ended a session (.answered request now idleTimeout found answer)
  | revoked : Ended a session (.revoked session.token)

theorem ended_create (inputs : List AccessInput) {session : ManagementSession}
    (hmem : session ∈ (run cfg inputs).sessions.items) {c : Creation} {other : ManagementSession}
    (grant : Grant)
    (hgone : ∀ s ∈ (create (run cfg inputs).sessions c other).items, s.token ≠ session.token) :
    Ended (run cfg inputs) session (.issued other c grant) := by
  rw [create] at hgone
  have hother : other.token ≠ session.token := hgone other (Table.mem_set.2 (.inl rfl))
  by_cases hstale : session.stale c.now c.idleTimeout = true
  · exact .stale other c grant hstale
  · have hroom : session ∉ (makeRoom maxManagementSessions
        (ManagementSession.stale c.now c.idleTimeout) ManagementSession.lastSeen c.rank
        (run cfg inputs).sessions).items := fun hkept =>
      hgone session (Table.mem_set.2 (.inr ⟨hkept, fun hkey => hother hkey.symm⟩)) rfl
    obtain ⟨hfull, holdest⟩ := evicted_makeRoom (Nat.succ_pos _)
      (fun s hs => (established_run inputs s hs).1) hmem (Bool.eq_false_iff.2 hstale) hroom
    exact .evicted other c grant hfull holdest

theorem ended_authenticate {sessions : Table ManagementSession} {session : ManagementSession}
    (hmem : session ∈ sessions.items) {cookie : Option String} {now timeout : Int}
    (hgone : ∀ s ∈ (authenticate sessions cookie now timeout).1.items, s.token ≠ session.token) :
    cookie = some session.token ∧ session.stale now timeout = true := by
  rw [authenticate] at hgone
  dsimp only at hgone
  have herased : ∀ value, (∀ s ∈ (sessions.erase value).items, s.token ≠ session.token) →
      session.token = value := by
    intro value hgone
    by_contra hne
    exact hgone session (Table.mem_erase.2 ⟨hmem, hne⟩) rfl
  split at hgone
  next => exact absurd rfl (hgone session hmem)
  next hvalue =>
    obtain ⟨value, rfl⟩ : ∃ value, cookie = some value := by
      cases cookie with
      | none => exact absurd rfl hvalue
      | some value => exact ⟨value, rfl⟩
    split at hgone
    next hget =>
      have hnone := Table.get?_eq_none.1 hget session hmem
      exact absurd (herased _ hgone) hnone
    next found hget =>
      split at hgone
      next hstale =>
        have htoken := herased _ hgone
        obtain ⟨hfound, hkey⟩ := Table.get?_eq_some.1 hget
        obtain rfl : found = session :=
          Table.key_injOn sessions.nodup hfound hmem (hkey.trans htoken.symm)
        exact ⟨congrArg some htoken.symm, hstale⟩
      next =>
        obtain ⟨hfound, -⟩ := Table.get?_eq_some.1 hget
        by_cases hsame : session.token = found.token
        · exact absurd hsame.symm
            (hgone { found with lastSeen := now } (Table.mem_set.2 (.inl rfl)))
        · exact absurd rfl (hgone session (Table.mem_set.2 (.inr ⟨hmem, hsame⟩)))

/-- **How a session ends.** In every run, a session that goes in a step has been
revoked, or is stale and was cleaned up or asked for, or was evicted: there were
2048 sessions that were not stale, and none of them has been seen before it. -/
theorem ended_of_gone (inputs : List AccessInput) (input : AccessInput)
    {session : ManagementSession} (hmem : session ∈ (run cfg inputs).sessions.items)
    (hgone : ∀ s ∈ ((run cfg inputs).step cfg input).1.sessions.items, s.token ≠ session.token) :
    Ended (run cfg inputs) session ((run cfg inputs).step cfg input).2 := by
  have hmoves := @moves_step cfg (run cfg inputs) input
  generalize ((run cfg inputs).step cfg input).1 = a' at hgone hmoves
  generalize ((run cfg inputs).step cfg input).2 = event at hmoves ⊢
  cases hmoves with
  | login provided => exact ended_create inputs hmem (.key provided) hgone
  | complete i c identity => exact ended_create inputs hmem (.identity identity) hgone
  | answered request now idleTimeout =>
      obtain ⟨hcookie, hstale⟩ := ended_authenticate hmem hgone
      exact .expired request now idleTimeout _ _ hcookie hstale
  | revoked i token =>
      obtain rfl : session.token = token := by
        by_contra hne
        exact hgone session (Table.mem_erase.2 ⟨hmem, hne⟩) rfl
      exact .revoked
  | _ => exact absurd rfl (hgone session hmem)

theorem ended_of_gone_expired :
    Ended (run sample [sampleLogin]) sampleSession
      ((run sample [sampleLogin]).step sample (.request sampleRequest 1500 1000)).2 :=
  ended_of_gone [sampleLogin] (.request sampleRequest 1500 1000)
    (by rw [run_sampleLogin]; exact List.mem_singleton_self _)
    (by
      have hnone : (step sample { sessions := create ∅ sampleCreation sampleSession }
          (.request sampleRequest 1500 1000)).1.sessions.items = [] := by rfl
      rw [run_sampleLogin, hnone]
      exact fun s hs => absurd hs List.not_mem_nil)

/-- A logout was served for the session with the token. -/
def Left (cfg : AccessConfig) (events : List AccessEvent) (token : String) : Prop :=
  ∃ before request now idleTimeout session role after,
    events = before ++ .answered request now idleTimeout (some session) (.served role) :: after ∧
      request.isLogout = true ∧ session.token = token ∧ role.allows .operator = true ∧
      Admitted cfg before request now idleTimeout role (some session)

theorem Left.append {events : List AccessEvent} {token : String} (h : Left cfg events token)
    (event : AccessEvent) : Left cfg (events ++ [event]) token := by
  obtain ⟨before, request, now, idleTimeout, session, role, after, rfl, hrest⟩ := h
  exact ⟨before, request, now, idleTimeout, session, role, after ++ [event], by simp, hrest⟩

theorem requiredRole_logout {request : Request} (h : request.isLogout = true) :
    requiredRole request = .operator := by
  have hlogout : request.method = "POST" ∧ request.path = "/session/logout" := of_decide_eq_true h
  obtain ⟨hmethod, hpath⟩ := hlogout
  rw [requiredRole, hmethod, hpath]
  simp

theorem left_run (inputs : List AccessInput) :
    ∀ token ∈ (run cfg inputs).leaving, Left cfg (events cfg inputs) token := by
  refine @run_induction cfg (fun past a => ∀ token ∈ a.leaving, Left cfg past token)
    (fun token hmem => absurd hmem List.not_mem_nil) ?_ inputs
  intro inputs a' event ih hmoves token hmem
  have hkept : token ∈ (run cfg inputs).leaving → Left cfg (events cfg inputs ++ [event]) token :=
    fun hold => (ih token hold).append _
  cases hmoves with
  | revoked i => exact hkept (List.mem_of_mem_eraseIdx hmem)
  | answered request now idleTimeout session answer hsession hanswer =>
      rcases List.mem_append.1 hmem with hold | hnew
      · exact hkept hold
      · have hleaving := Option.mem_toList.1 hnew
        split at hleaving
        next hlogout =>
          obtain ⟨session, rfl, htoken⟩ := Option.map_eq_some_iff.1 hleaving
          obtain ⟨role, rfl⟩ : ∃ role, answer = .served role := by
            cases answer with
            | served role => exact ⟨role, rfl⟩
            | refused refusal => exact absurd hlogout.2 Bool.false_ne_true
          obtain ⟨hallows, hadmitted⟩ := admitted_of_answered inputs hsession hanswer
          rw [requiredRole_logout hlogout.1] at hallows
          exact ⟨events cfg inputs, request, now, idleTimeout, session, role, [], rfl,
            hlogout.1, htoken, hallows, hadmitted⟩
        next => cases hleaving
  | _ => exact hkept hmem

/-- **Whose session is revoked.** In every run, a session is revoked only after a
logout was served for it. A logout needs an operator, so the session of a viewer
is never revoked. -/
theorem left_of_revoked {inputs : List AccessInput} {past rest : List AccessEvent} {token : String}
    (h : events cfg inputs = past ++ .revoked token :: rest) : Left cfg past token := by
  obtain ⟨inputs', a', rfl, hmoves⟩ := moves_split h
  cases hmoves with
  | revoked i _ hget => exact left_run inputs' token (List.mem_of_getElem? hget)

def sampleLogout : Request where
  method := "POST"
  urlPath := "/admin/api/session/logout"
  cookie := some sampleSession.token
  csrfToken := sampleSession.csrf

/-- A session that is in the map and not stale is found. -/
theorem authenticate_of_mem {sessions : Table ManagementSession} {session : ManagementSession}
    (hmem : session ∈ sessions.items) (hnamed : session.token ≠ "") {now timeout : Int}
    (hfresh : session.stale now timeout = false) :
    (authenticate sessions (some session.token) now timeout).2 =
      (some { session with lastSeen := now }, .active) := by
  have hget : sessions.get? session.token = some session := Table.get?_of_mem hmem
  rw [authenticate, Option.getD_some]
  dsimp only
  rw [if_neg hnamed, hget]
  dsimp only
  rw [if_neg (by rw [hfresh]; exact Bool.false_ne_true)]

theorem step_logout {a : Access} {session : ManagementSession} {request : Request}
    (hmem : session ∈ a.sessions.items) (hnamed : session.token ≠ "")
    (hfresh : session.stale 1050 100 = false) (hrole : session.role = .operator)
    (hleaving : a.leaving = []) (hopen : request.isOpen = false)
    (hlogout : request.isLogout = true)
    (hrequest : request =
      { request with cookie := some session.token, csrfToken := session.csrf }) :
    (a.step cfg (.request request 1050 100)).1.leaving = [session.token] ∧
      (a.step cfg (.request request 1050 100)).2 =
        .answered request 1050 100 (some { session with lastSeen := 1050 }) (.served .operator) := by
  have hfound : (authenticate a.sessions request.cookie 1050 100).2 =
      (some { session with lastSeen := 1050 }, .active) := by
    rw [hrequest]
    exact authenticate_of_mem hmem hnamed hfresh
  have hequal : secureEqual request.csrfToken session.csrf = true := by
    rw [hrequest]
    exact decide_eq_true rfl
  have hanswer : answerOf cfg a request 1050 100 = .served .operator := by
    rw [answerOf, hfound, serveHTTP, Option.map_some, hrole]
    simp [hequal, requiredRole_logout hlogout, Role.allows]
  rw [step_request a hopen, hanswer, hfound, hleaving, hlogout]
  exact ⟨rfl, rfl⟩

theorem left_of_revoked_operator :
    Left sample
      [.issued sampleSession sampleCreation (.key "operator key"),
        .answered sampleLogout 1050 100 (some { sampleSession with lastSeen := 1050 })
          (.served .operator)] sampleSession.token :=
  @left_of_revoked sample [sampleLogin, .request sampleLogout 1050 100, .revoke 0] _ [] _
    (by
      rw [events, outputs, step_sampleLogin, outputs, outputs]
      obtain ⟨hleaving, hanswered⟩ := @step_logout sample
        { sessions := create ∅ sampleCreation sampleSession } sampleSession sampleLogout
        (Table.mem_set.2 (.inl rfl)) (Random.token_ne_empty _) (by decide) rfl rfl (by rfl) (by rfl)
        rfl
      generalize step sample _ _ = next at hleaving hanswered ⊢
      obtain ⟨⟨sessions, transactions, identities, leaving⟩, event⟩ := next
      cases hleaving
      cases hanswered
      rfl)

end Access

end RelayLifeline.Admin
