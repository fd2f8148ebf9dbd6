import Commissioning.Exchange.Recording

/-!
Runs of a procedure whatever its surroundings do. Every answer is open, so is the time that it
takes, and a run may be given up wherever it waits: while a request is open, or in a pause. A run is
told by its exchanges, by how it ends and by when.

    ask (exchange q) ──┬─ answer a ──▶ ⟨q, now, (later, a)⟩ :: rest
                       └─ given up ──▶ [⟨q, now, none⟩], cancelled

A run of two procedures one after the other splits into a run of the first and, if that has given a
result, a run of the second (`runs_bind`).
-/
namespace Commissioning

/-- A request, when it was sent, and its answer with the time of it; a request that is open when its
run is given up has none. -/
structure Exchange where
  request : Request
  sent : Nat
  reply : Option (Nat × Outcome Entries)

namespace Exchange

/-- What an exchange has answered. -/
def answer? (x : Exchange) : Option (Outcome Entries) := x.reply.map Prod.snd

/-- Whether a request has been answered without a failure. -/
def Succeeded (x : Exchange) : Prop := ∃ values, x.answer? = some (.ok values)

end Exchange

/-- Why a run ends without a result. -/
inductive Stop where
  | raised (e : Fault)
  | cancelled

namespace Plan
variable {E : Type} {Answer : E → Type} {α β γ : Type}

theorem bind_done_right (p : Plan Answer α) : p.bind done = p := by
  induction p with
  | done a => rfl
  | fail e => rfl
  | ask e next ih => simp only [bind, ih]

theorem bind_bind (p : Plan Answer α) (f : α → Plan Answer β) (g : β → Plan Answer γ) :
    (p.bind f).bind g = p.bind fun a => (f a).bind g := by
  induction p with
  | done a => rfl
  | fail e => rfl
  | ask e next ih => simp only [bind, ih]

instance : LawfulMonad (Plan Answer) :=
  .mk' _ bind_done_right (fun _ _ => rfl) bind_bind

end Plan

namespace Procedure
variable {α β : Type} {now finish : Nat} {t : List Exchange}

/-- A run of a procedure from `now` to `finish`, with its exchanges and its end. -/
def Runs : Procedure α → Nat → List Exchange → Except Stop α → Nat → Prop
  | .done a, now, t, r, finish => t = [] ∧ r = .ok a ∧ finish = now
  | .fail e, now, t, r, finish => t = [] ∧ r = .error (.raised e) ∧ finish = now
  | .ask (.exchange q) next, now, t, r, finish =>
    (now ≤ finish ∧ t = [⟨q, now, none⟩] ∧ r = .error .cancelled) ∨
    ∃ later answer rest, now ≤ later ∧ t = ⟨q, now, some (later, answer)⟩ :: rest ∧
      Runs (next answer) later rest r finish
  | .ask (.pause ms) next, now, t, r, finish =>
    (now ≤ finish ∧ t = [] ∧ r = .error .cancelled) ∨
    ∃ later, now + ms ≤ later ∧ Runs (next ()) later t r finish
  | .ask .clock next, now, t, r, finish => Runs (next now) now t r finish
  | .ask (.log _) next, now, t, r, finish => Runs (next ()) now t r finish

theorem ofMismatch_ok (a : α) : ofMismatch (.ok a) = pure a := rfl

/-! ### One step of a run -/

theorem runs_pause {ms : Nat} {r : Except Stop Unit} :
    Runs (pause ms) now t r finish ↔ t = [] ∧
      ((now ≤ finish ∧ r = .error .cancelled) ∨ (now + ms ≤ finish ∧ r = .ok ())) := by
  constructor
  · rintro (⟨hf, rfl, rfl⟩ | ⟨later, hl, rfl, rfl, rfl⟩)
    · exact ⟨rfl, .inl ⟨hf, rfl⟩⟩
    · exact ⟨rfl, .inr ⟨hl, rfl⟩⟩
  · rintro ⟨rfl, ⟨hf, rfl⟩ | ⟨hf, rfl⟩⟩
    · exact .inl ⟨hf, rfl, rfl⟩
    · exact .inr ⟨finish, hf, rfl, rfl, rfl⟩

theorem runs_ofOutcome {o : Outcome α} {r : Except Stop α} :
    Runs (.ofOutcome o) now t r finish ↔ t = [] ∧ r = o.mapError .raised ∧ finish = now := by
  cases o <;> exact Iff.rfl

theorem runs_ofLogged {l : Logged α} {r : Except Stop α} :
    Runs (ofLogged l) now t r finish ↔
      t = [] ∧ r = l.outcome.mapError .raised ∧ finish = now := by
  unfold ofLogged
  split
  · exact runs_ofOutcome
  · exact runs_ofOutcome

theorem runs_send {q : Request} {r : Except Stop Entries} :
    Runs (send q) now t r finish ↔ now ≤ finish ∧
      ((t = [⟨q, now, none⟩] ∧ r = .error .cancelled) ∨
        ∃ answer, t = [⟨q, now, some (finish, answer)⟩] ∧ r = answer.mapError .raised) := by
  constructor
  · rintro (⟨hf, rfl, rfl⟩ | ⟨later, answer, rest, hl, rfl, h⟩)
    · exact ⟨hf, .inl ⟨rfl, rfl⟩⟩
    · obtain ⟨rfl, rfl, rfl⟩ := runs_ofOutcome.mp h
      exact ⟨hl, .inr ⟨answer, rfl, rfl⟩⟩
  · rintro ⟨hf, ⟨rfl, rfl⟩ | ⟨answer, rfl, rfl⟩⟩
    · exact .inl ⟨hf, rfl, rfl⟩
    · exact .inr ⟨finish, answer, [], hf, rfl, runs_ofOutcome.mpr ⟨rfl, rfl, rfl⟩⟩

/-- A request whose answer does not matter any more once it has come. -/
theorem runs_request {q : Request} {r : Except Stop Unit} :
    Runs (do let _ ← send q) now t r finish ↔ now ≤ finish ∧
      ((t = [⟨q, now, none⟩] ∧ r = .error .cancelled) ∨
        ∃ answer, t = [⟨q, now, some (finish, answer)⟩] ∧
          r = (answer.map fun _ => ()).mapError .raised) := by
  constructor
  · rintro (⟨hf, rfl, rfl⟩ | ⟨later, answer, rest, hl, rfl, h⟩)
    · exact ⟨hf, .inl ⟨rfl, rfl⟩⟩
    · cases answer with
      | ok values =>
        obtain ⟨rfl, rfl, rfl⟩ := h
        exact ⟨hl, .inr ⟨_, rfl, rfl⟩⟩
      | error e =>
        obtain ⟨rfl, rfl, rfl⟩ := h
        exact ⟨hl, .inr ⟨_, rfl, rfl⟩⟩
  · rintro ⟨hf, ⟨rfl, rfl⟩ | ⟨answer, rfl, rfl⟩⟩
    · exact .inl ⟨hf, rfl, rfl⟩
    · refine .inr ⟨finish, answer, [], hf, rfl, ?_⟩
      cases answer <;> exact ⟨rfl, rfl, rfl⟩

/-! ### One procedure after another -/

theorem runs_bind {p : Procedure α} {f : α → Procedure β} {r : Except Stop β} :
    Runs (p >>= f) now t r finish ↔
      (∃ a t₁ t₂ mid, Runs p now t₁ (.ok a) mid ∧ Runs (f a) mid t₂ r finish ∧ t = t₁ ++ t₂) ∨
        ∃ stop, Runs p now t (.error stop) finish ∧ r = .error stop := by
  change Runs (p.bind f) now t r finish ↔ _
  induction p generalizing now t with
  | done a =>
    simp only [Plan.bind, Runs]
    constructor
    · intro h
      exact .inl ⟨a, [], t, now, ⟨rfl, rfl, rfl⟩, h, rfl⟩
    · rintro (⟨_, _, t₂, _, ⟨rfl, ⟨⟩, rfl⟩, h, rfl⟩ | ⟨_, ⟨_, ⟨⟩, _⟩, _⟩)
      exact h
  | fail e =>
    simp only [Plan.bind, Runs]
    constructor
    · rintro ⟨rfl, rfl, rfl⟩
      exact .inr ⟨_, ⟨rfl, rfl, rfl⟩, rfl⟩
    · rintro (⟨_, _, _, _, ⟨_, ⟨⟩, _⟩, _, _⟩ | ⟨_, ⟨rfl, ⟨⟩, rfl⟩, rfl⟩)
      exact ⟨rfl, rfl, rfl⟩
  | ask e next ih =>
    cases e with
    | exchange q =>
      simp only [Plan.bind, Runs, ih]
      constructor
      · rintro (⟨hf, rfl, rfl⟩ | ⟨later, answer, rest, hl, rfl, h⟩)
        · exact .inr ⟨.cancelled, .inl ⟨hf, rfl, rfl⟩, rfl⟩
        · rcases h with ⟨a, t₁, t₂, mid, h₁, h₂, rfl⟩ | ⟨stop, h, rfl⟩
          · exact .inl ⟨a, _ :: t₁, t₂, mid, .inr ⟨later, answer, t₁, hl, rfl, h₁⟩, h₂, rfl⟩
          · exact .inr ⟨stop, .inr ⟨later, answer, rest, hl, rfl, h⟩, rfl⟩
      · rintro (⟨a, _, t₂, mid, ⟨_, _, ⟨⟩⟩ | ⟨later, answer, rest, hl, rfl, h⟩, h₂, rfl⟩ |
          ⟨stop, ⟨hf, rfl, ⟨⟩⟩ | ⟨later, answer, rest, hl, rfl, h⟩, rfl⟩)
        · exact .inr ⟨later, answer, rest ++ t₂, hl, rfl, .inl ⟨a, rest, t₂, mid, h, h₂, rfl⟩⟩
        · exact .inl ⟨hf, rfl, rfl⟩
        · exact .inr ⟨later, answer, rest, hl, rfl, .inr ⟨stop, h, rfl⟩⟩
    | pause ms =>
      simp only [Plan.bind, Runs, ih]
      constructor
      · rintro (⟨hf, rfl, rfl⟩ | ⟨later, hl, h⟩)
        · exact .inr ⟨.cancelled, .inl ⟨hf, rfl, rfl⟩, rfl⟩
        · rcases h with ⟨a, t₁, t₂, mid, h₁, h₂, rfl⟩ | ⟨stop, h, rfl⟩
          · exact .inl ⟨a, t₁, t₂, mid, .inr ⟨later, hl, h₁⟩, h₂, rfl⟩
          · exact .inr ⟨stop, .inr ⟨later, hl, h⟩, rfl⟩
      · rintro (⟨a, t₁, t₂, mid, ⟨_, _, ⟨⟩⟩ | ⟨later, hl, h⟩, h₂, rfl⟩ |
          ⟨stop, ⟨hf, rfl, ⟨⟩⟩ | ⟨later, hl, h⟩, rfl⟩)
        · exact .inr ⟨later, hl, .inl ⟨a, t₁, t₂, mid, h, h₂, rfl⟩⟩
        · exact .inl ⟨hf, rfl, rfl⟩
        · exact .inr ⟨later, hl, .inr ⟨stop, h, rfl⟩⟩
    | clock => exact ih now
    | log lines => exact ih ()

theorem runs_pause_bind {ms : Nat} {f : Unit → Procedure β} {r : Except Stop β} :
    Runs (pause ms >>= f) now t r finish ↔ (now ≤ finish ∧ t = [] ∧ r = .error .cancelled) ∨
      ∃ later, now + ms ≤ later ∧ Runs (f ()) later t r finish := Iff.rfl

/-- How a run goes on after a request: with its values, or not at all. -/
theorem runs_send_bind {q : Request} {f : Entries → Procedure β} {r : Except Stop β}
    (h : Runs (send q >>= f) now t r finish) :
    (∃ later values rest, now ≤ later ∧ t = ⟨q, now, some (later, .ok values)⟩ :: rest ∧
      Runs (f values) later rest r finish) ∨
    (now ≤ finish ∧ t = [⟨q, now, none⟩] ∧ r = .error .cancelled) ∨
    ∃ e, now ≤ finish ∧ t = [⟨q, now, some (finish, .error e)⟩] ∧ r = .error (.raised e) := by
  rcases h with ⟨hf, rfl, rfl⟩ | ⟨later, answer, rest, hl, rfl, h⟩
  · exact .inr (.inl ⟨hf, rfl, rfl⟩)
  · cases answer with
    | ok values => exact .inl ⟨later, values, rest, hl, rfl, h⟩
    | error e =>
      obtain ⟨rfl, rfl, rfl⟩ := h
      exact .inr (.inr ⟨e, hl, rfl, rfl⟩)

/-- How a run goes on after a request whose values do not matter. -/
theorem runs_request_bind {q : Request} {f : Unit → Procedure β} {r : Except Stop β}
    (h : Runs ((do let _ ← send q) >>= f) now t r finish) :
    (∃ later values rest, now ≤ later ∧ t = ⟨q, now, some (later, .ok values)⟩ :: rest ∧
      Runs (f ()) later rest r finish) ∨
    (now ≤ finish ∧ t = [⟨q, now, none⟩] ∧ r = .error .cancelled) ∨
    ∃ e, now ≤ finish ∧ t = [⟨q, now, some (finish, .error e)⟩] ∧ r = .error (.raised e) := by
  rw [bind_assoc] at h
  exact runs_send_bind h

/-! ### A scripted device -/

/-- What a scripted device keeps of a procedure is one of its runs. -/
theorem record_runs (now : Nat) (s : Script) (p : Procedure α) : ∃ t,
    Runs p now t ((p.record s now).outcome.mapError .raised) (p.record s now).finish ∧
      t.map (fun x => (x.sent, x.request)) = (p.record s now).calls := by
  induction p generalizing now s with
  | done a => exact ⟨[], ⟨rfl, rfl, rfl⟩, rfl⟩
  | fail e => exact ⟨[], ⟨rfl, rfl, rfl⟩, rfl⟩
  | ask e next ih =>
    cases e with
    | exchange q =>
      let later := now + (s.latency.lookup q.kind.name).getD 0
      obtain ⟨t, ht, hcalls⟩ := ih (s.answer q).1 later (s.answer q).2
      refine ⟨⟨q, now, some (later, (s.answer q).1)⟩ :: t, ?_, ?_⟩
      · exact .inr ⟨later, _, t, Nat.le_add_right _ _, rfl, ht⟩
      · exact congrArg ((now, q) :: ·) hcalls
    | pause ms =>
      obtain ⟨t, ht, hcalls⟩ := ih () (now + ms) s
      exact ⟨t, .inr ⟨now + ms, Nat.le_refl _, ht⟩, hcalls⟩
    | clock => exact ih now now s
    | log lines => exact ih () now s

/-! ### What a procedure may ask for -/

/-- All requests of a procedure are of one sort, whatever is answered on the way. -/
def Sends (Q : Request → Prop) : Procedure α → Prop
  | .done _ | .fail _ => True
  | .ask (.exchange q) next => Q q ∧ ∀ answer, Sends Q (next answer)
  | .ask (.pause _) next => Sends Q (next ())
  | .ask .clock next => ∀ n, Sends Q (next n)
  | .ask (.log _) next => Sends Q (next ())

theorem sends_bind {Q : Request → Prop} {p : Procedure α} {f : α → Procedure β}
    (hp : Sends Q p) (hf : ∀ a, Sends Q (f a)) : Sends Q (p >>= f) := by
  change Sends Q (p.bind f)
  induction p with
  | done a => exact hf a
  | fail e => trivial
  | ask e next ih =>
    cases e with
    | exchange q => exact ⟨hp.1, fun answer => ih answer (hp.2 answer)⟩
    | pause ms => exact ih () hp
    | clock => exact fun n => ih n (hp n)
    | log lines => exact ih () hp

theorem Sends.mono {Q Q' : Request → Prop} {p : Procedure α} (hp : Sends Q p)
    (hq : ∀ q, Q q → Q' q) : Sends Q' p := by
  induction p with
  | done a => trivial
  | fail e => trivial
  | ask e next ih =>
    cases e with
    | exchange q => exact ⟨hq q hp.1, fun answer => ih answer (hp.2 answer)⟩
    | pause ms => exact ih () hp
    | clock => exact fun n => ih n (hp n)
    | log lines => exact ih () hp

theorem sends_pure {Q : Request → Prop} {a : α} : Sends Q (pure a) := trivial

theorem sends_pause {Q : Request → Prop} {ms : Nat} : Sends Q (pause ms) := trivial

theorem sends_clock {Q : Request → Prop} : Sends Q clock := fun _ => trivial

theorem sends_log {Q : Request → Prop} {lines : Log} : Sends Q (log lines) := trivial

theorem sends_note {Q : Request → Prop} {level : Level} {message : String} {entries : Entries} :
    Sends Q (note level message entries) := trivial

theorem sends_ofOutcome {Q : Request → Prop} (o : Outcome α) : Sends Q (.ofOutcome o) := by
  cases o <;> trivial

theorem sends_ofLogged_bind {Q : Request → Prop} {l : Logged α} {f : α → Procedure β}
    (h : ∀ a, l.outcome = .ok a → Sends Q (f a)) : Sends Q (ofLogged l >>= f) := by
  have hout : Sends Q ((.ofOutcome l.outcome : Procedure α) >>= f) := by
    cases hl : l.outcome with
    | ok a => exact h a hl
    | error e => trivial
  unfold ofLogged
  split
  · exact hout
  · exact hout

theorem sends_send {Q : Request → Prop} {q : Request} (hq : Q q) : Sends Q (send q) :=
  ⟨hq, sends_ofOutcome⟩

theorem sends_request {Q : Request → Prop} {q : Request} (hq : Q q) :
    Sends Q (do let _ ← send q) :=
  sends_bind (sends_send hq) fun _ => trivial

/-- A run sends what its procedure may ask for, and nothing else. -/
theorem Sends.of_runs {Q : Request → Prop} {p : Procedure α} {r : Except Stop α}
    (hp : Sends Q p) (h : Runs p now t r finish) : ∀ x ∈ t, Q x.request := by
  induction p generalizing now t with
  | done a =>
    obtain ⟨rfl, -, -⟩ := h
    simp
  | fail e =>
    obtain ⟨rfl, -, -⟩ := h
    simp
  | ask e next ih =>
    cases e with
    | exchange q =>
      rcases h with ⟨-, rfl, -⟩ | ⟨later, answer, rest, -, rfl, h⟩
      · simpa using hp.1
      · exact List.forall_mem_cons.mpr ⟨hp.1, ih answer (hp.2 answer) h⟩
    | pause ms =>
      rcases h with ⟨-, rfl, -⟩ | ⟨later, -, h⟩
      · simp
      · exact ih () hp h
    | clock => exact ih now (hp now) h
    | log lines => exact ih () hp h

/-! ### What a procedure asks for in turn -/

/-- A procedure sends these requests one after the other, whatever is answered, unless it fails on
the way. -/
def SendsInTurn : List Request → Procedure α → Prop
  | qs, .done _ => qs = []
  | _, .fail _ => True
  | qs, .ask (.exchange q) next => ∃ rest, qs = q :: rest ∧ ∀ answer, SendsInTurn rest (next answer)
  | qs, .ask (.pause _) next => SendsInTurn qs (next ())
  | qs, .ask .clock next => ∀ n, SendsInTurn qs (next n)
  | qs, .ask (.log _) next => SendsInTurn qs (next ())

section
variable {qs rest : List Request} {p : Procedure α} {f : α → Procedure β}

theorem sendsInTurn_bind (hp : SendsInTurn qs p) (hf : ∀ a, SendsInTurn rest (f a)) :
    SendsInTurn (qs ++ rest) (p >>= f) := by
  change SendsInTurn (qs ++ rest) (p.bind f)
  induction p generalizing qs with
  | done a =>
    obtain rfl : qs = [] := hp
    exact hf a
  | fail e => trivial
  | ask e next ih =>
    cases e with
    | exchange q =>
      obtain ⟨others, rfl, hnext⟩ := hp
      exact ⟨others ++ rest, rfl, fun answer => ih answer (hnext answer)⟩
    | pause ms => exact ih () hp
    | clock => exact fun n => ih n (hp n)
    | log lines => exact ih () hp

/-- What sends nothing may come before. -/
theorem sendsInTurn_bind_right (hp : SendsInTurn [] p) (hf : ∀ a, SendsInTurn rest (f a)) :
    SendsInTurn rest (p >>= f) := sendsInTurn_bind hp hf

/-- What sends nothing may come after. -/
theorem sendsInTurn_bind_left (hp : SendsInTurn qs p) (hf : ∀ a, SendsInTurn [] (f a)) :
    SendsInTurn qs (p >>= f) := by
  have h := sendsInTurn_bind hp hf
  rwa [List.append_nil] at h

theorem sendsInTurn_pure {a : α} : SendsInTurn [] (pure a : Procedure α) := rfl

theorem sendsInTurn_ofOutcome (o : Outcome α) :
    SendsInTurn [] (.ofOutcome o : Procedure α) := by
  cases o with
  | ok a => rfl
  | error e => trivial

theorem sendsInTurn_ofLogged_bind {l : Logged α}
    (h : ∀ a, l.outcome = .ok a → SendsInTurn rest (f a)) :
    SendsInTurn rest (ofLogged l >>= f) := by
  have hout : SendsInTurn rest ((.ofOutcome l.outcome : Procedure α) >>= f) := by
    cases hl : l.outcome with
    | ok a => exact h a hl
    | error e => trivial
  unfold ofLogged
  split
  · exact hout
  · exact hout

theorem sendsInTurn_send (q : Request) : SendsInTurn [q] (send q) :=
  ⟨[], rfl, sendsInTurn_ofOutcome⟩

theorem sendsInTurn_request (q : Request) : SendsInTurn [q] (do let _ ← send q) :=
  sendsInTurn_bind_left (sendsInTurn_send q) fun _ => sendsInTurn_pure

/-- A run sends the requests in turn as far as it gets, and all of them if it gives a result. -/
theorem SendsInTurn.of_runs {t : List Exchange} {r : Except Stop α} (hp : SendsInTurn qs p)
    (h : Runs p now t r finish) : t.map Exchange.request <+: qs ∧
      ∀ a, r = .ok a → t.map Exchange.request = qs := by
  induction p generalizing qs now t with
  | done a =>
    obtain ⟨rfl, -, -⟩ := h
    exact ⟨List.nil_prefix, fun _ _ => Eq.symm hp⟩
  | fail e =>
    obtain ⟨rfl, rfl, -⟩ := h
    exact ⟨List.nil_prefix, nofun⟩
  | ask e next ih =>
    cases e with
    | exchange q =>
      obtain ⟨others, rfl, hnext⟩ := hp
      rcases h with ⟨-, rfl, rfl⟩ | ⟨later, answer, rest, -, rfl, h⟩
      · exact ⟨List.prefix_append [q] others, nofun⟩
      · obtain ⟨hbegin, hall⟩ := ih answer (hnext answer) h
        exact ⟨(List.prefix_cons_inj q).mpr hbegin, fun a ha => congrArg (q :: ·) (hall a ha)⟩
    | pause ms =>
      rcases h with ⟨-, rfl, rfl⟩ | ⟨later, -, h⟩
      · exact ⟨List.nil_prefix, nofun⟩
      · exact ih () hp h
    | clock => exact ih now (hp now) h
    | log lines => exact ih () hp h

end

end Procedure

end Commissioning
