import MysqlConnection.Core.Resource
import MysqlConnection.L2Client.Steps

/-!
# The login records

`connect:` makes a `LOGINREC`, fills it, opens the handle with it and frees it
in `connectionFailure:` or `connectionSuccess:`. The record is an instance
variable that all blocks on the worker queue share: each call takes the record
of the last `dblogin`.

The records are observed beside the runs of the client: `loginEvents` says
which record a step makes, uses or frees, `Resource.check` whether that is
right.

* `LoginEffect`, `loginEffect_of_step`: what one step does to the records.
* `Alone`: no `dblogin` was called while another block still had to free its
  record.
* `Accounts`: while that is so at most one record is held, the one `login` points
  to; the first `dblogin` that breaks it loses a record that no block can free.
* `logins_iff`: so, once all blocks are done, no record was used after it was
  freed or freed twice exactly if `Alone`, and exactly then none was left behind.
-/
namespace MysqlConnection.L2.Client

open Resource

variable {ρ : Type}

/-! ## The calls on login records -/

/-- The block has called `dblogin` and not `dbloginfree`. -/
def Task.holds : Task ρ → Bool
  | .connect _ .dblogin => false
  | .connect _ _ => true
  | .dbloginfree _ => true
  | _ => false

/-- So many blocks have a record to free. -/
def St.held (s : St ρ) : Nat := s.workerQueue.countP Task.holds

/-- `overlapping`: another block has a record to free. -/
inductive LoginEvent where
  | dblogin (l : Nat) (overlapping : Bool)
  | set (l : Option Nat)
  | dbopen (l : Option Nat)
  | dbloginfree (l : Option Nat)
  deriving DecidableEq, Repr

def LoginEvent.op : LoginEvent → Op Nat
  | .dblogin l _ => .acquire l
  | .set l => .use l
  | .dbopen l => .use l
  | .dbloginfree l => .release l

/-- The calls of one step.
mirrors SQLClient.m:97-122, 260-285 -/
def taskEvents (s : St ρ) : Task ρ → Outcome → List LoginEvent
  | .connect _ .dblogin, .ok => [.dblogin s.logins.length (0 < s.held)]
  | .connect _ .setUser, _ => [.set s.login]
  | .connect _ .setPwd, _ => [.set s.login]
  | .connect _ .setHost, _ => [.set s.login]
  | .connect _ .dbopen, _ => [.dbopen s.login]
  | .dbloginfree _, _ => [.dbloginfree s.login]
  | _, _ => []

def loginEvents (s : St ρ) : Label ρ → List LoginEvent
  | .worker i o => s.workerQueue[i]?.elim [] fun t => taskEvents s t o
  | _ => []

/-- The block is about to call `dblogin`. -/
def Task.starts : Task ρ → Bool
  | .connect _ .dblogin => true
  | _ => false

/-- `dblogin` does not fail: it does only without memory. -/
def Allocates (s : St ρ) : Label ρ → Prop
  | .worker i .fail => (s.workerQueue[i]?).any Task.starts = false
  | _ => True

instance (s : St ρ) : (l : Label ρ) → Decidable (Allocates s l)
  | .worker i .fail => inferInstanceAs (Decidable ((s.workerQueue[i]?).any Task.starts = false))
  | .worker _ .ok => isTrue trivial
  | .worker _ .done => isTrue trivial
  | .worker _ (.cols _) => isTrue trivial
  | .worker _ (.row _) => isTrue trivial
  | .createInstance _ _ => isTrue trivial
  | .request _ _ _ => isTrue trivial
  | .callback _ _ => isTrue trivial

def ops (es : List LoginEvent) : List (Op Nat) := es.map LoginEvent.op

/-- No record is used after it was freed or freed twice. -/
def Safe (es : List LoginEvent) : Prop := (check [] (ops es)).isSome

/-- Every record is freed. -/
def AllFreed (es : List LoginEvent) : Prop :=
  ∀ l overlapping, .dblogin l overlapping ∈ es → .dbloginfree (some l) ∈ es

def Alone (es : List LoginEvent) : Prop := ∀ l, .dblogin l true ∉ es

/-! ## One step -/

/-- What a step does to the records, and to the number of blocks that have
one. -/
inductive LoginEffect (s s' : St ρ) (held held' : Nat) : List LoginEvent → Prop
  | none (hl : s'.login = s.login) (hn : s'.logins.length = s.logins.length) (hh : held' = held) :
      LoginEffect s s' held held' []
  | dblogin (hl : s'.login = some s.logins.length) (hn : s'.logins.length = s.logins.length + 1)
      (hh : held' = held + 1) :
      LoginEffect s s' held held' [.dblogin s.logins.length (decide (0 < s.held))]
  | use {e : LoginEvent} (he : e.op = .use s.login) (hl : s'.login = s.login)
      (hn : s'.logins.length = s.logins.length) (hh : held' = held) (hpos : 0 < held) :
      LoginEffect s s' held held' [e]
  | dbloginfree (hl : s'.login = s.login) (hn : s'.logins.length = s.logins.length)
      (hh : held = held' + 1) : LoginEffect s s' held held' [.dbloginfree s.login]

/-- Other blocks beside. -/
theorem LoginEffect.add {s s' : St ρ} {held held' : Nat} {es : List LoginEvent} (k : Nat)
    (h : LoginEffect s s' held held' es) : LoginEffect s s' (k + held) (k + held') es := by
  cases h with
  | none hl hn hh => exact .none hl hn (by omega)
  | dblogin hl hn hh => exact .dblogin hl hn (by omega)
  | use he hl hn hh hpos => exact .use he hl hn (by omega) (by omega)
  | dbloginfree hl hn hh => exact .dbloginfree hl hn (by omega)

section
variable (s : St ρ)

theorem setHandle_logins (f : Handle ρ → Handle ρ) :
    (s.setHandle f).login = s.login ∧ (s.setHandle f).logins = s.logins := by
  unfold St.setHandle
  split <;> exact ⟨rfl, rfl⟩

theorem sendBuffer_logins : s.sendBuffer.login = s.login ∧ s.sendBuffer.logins = s.logins := by
  unfold St.sendBuffer
  split
  · split
    · exact ⟨rfl, rfl⟩
    · exact setHandle_logins _ _
  · exact ⟨rfl, rfl⟩

theorem setLogin_logins (f : Login → Login) :
    (s.setLogin f).login = s.login ∧ (s.setLogin f).logins.length = s.logins.length := by
  unfold St.setLogin
  split
  · exact ⟨rfl, rfl⟩
  · exact ⟨rfl, List.length_modify _ _ _⟩

end

theorem executeStep_logins {s s' : St ρ} {r : Request ρ} {pc : ExecutePc} {o : Outcome}
    {x : Option (Task ρ)} (h : executeStep s r pc o = some (s', x)) :
    s'.login = s.login ∧ s'.logins = s.logins := by
  unfold executeStep at h
  split at h
  case h_1 => cases h; exact setHandle_logins _ _
  case h_2 | h_3 => cases h; exact sendBuffer_logins _
  case h_22 => cases h
  all_goals cases h; exact ⟨rfl, rfl⟩

theorem callbackStep_logins (s : St ρ) (connected : Bool) (c : Callback ρ) :
    (callbackStep s connected c).login = s.login ∧ (callbackStep s connected c).logins = s.logins := by
  cases c with
  | connectionFailure r => exact ⟨rfl, rfl⟩
  | connectionSuccess r => cases connected <;> exact ⟨rfl, rfl⟩
  | execution r results => exact setHandle_logins _ _

/-- How many records a block has. -/
def Task.count (t : Task ρ) : Nat := if t.holds then 1 else 0

/-- How many the rest of a block has. -/
def restCount (x : Option (Task ρ)) : Nat := (x.map Task.count).getD 0

theorem connectStep_logins {s s₁ : St ρ} {r : Request ρ} {pc : ConnectPc} {o : Outcome}
    {x : Option (Task ρ)} (hok : pc = .dblogin → o ≠ .fail) (h : connectStep s r pc o = some (s₁, x)) :
    LoginEffect s s₁ (Task.connect r pc).count (restCount x) (taskEvents s (.connect r pc) o) := by
  cases pc <;> cases o <;> simp only [connectStep, Option.some.injEq, Prod.mk.injEq, reduceCtorEq] at h <;>
    obtain ⟨rfl, rfl⟩ := h
  case dblogin.ok => exact .dblogin rfl (List.length_append) rfl
  case dblogin.fail => exact absurd rfl (hok rfl)
  case setUser.ok | setPwd.ok | setHost.ok =>
    obtain ⟨hl, hn⟩ := setLogin_logins s _
    exact .use rfl hl hn rfl Nat.one_pos
  case dbopen.ok | dbopen.fail => exact .use rfl rfl rfl rfl Nat.one_pos
  case dbuse.ok =>
    obtain ⟨hl, hn⟩ := setHandle_logins (s.call .dbuse) _
    exact .none hl (congrArg List.length hn) rfl
  case dbuse.fail | failure.ok | success.ok => exact .none rfl rfl rfl

theorem workerStep_logins {s s₁ : St ρ} {t : Task ρ} {o : Outcome} {x : Option (Task ρ)}
    (hok : t.starts = true → o ≠ .fail) (h : workerStep s t o = some (s₁, x)) :
    LoginEffect s s₁ t.count (restCount x) (taskEvents s t o) := by
  cases t with
  | connect r pc =>
    refine connectStep_logins (fun hpc => ?_) h
    subst hpc
    exact hok rfl
  | execute r pc =>
    obtain ⟨hl, hn⟩ := executeStep_logins h
    obtain ⟨-, -, cs, hm, -⟩ := executeStep_spec h
    have hx : restCount x = 0 := by cases hm <;> rfl
    rw [hx]
    exact .none hl (congrArg List.length hn) rfl
  | dbloginfree r =>
    cases o <;> simp only [workerStep, Option.some.injEq, Prod.mk.injEq, reduceCtorEq] at h
    obtain ⟨rfl, rfl⟩ := h
    exact .dbloginfree rfl rfl rfl
  | dbfreebuf r =>
    cases o <;> simp only [workerStep, Option.some.injEq, Prod.mk.injEq, reduceCtorEq] at h
    obtain ⟨rfl, rfl⟩ := h
    obtain ⟨hl, hn⟩ := setHandle_logins (s.call .dbfreebuf) Handle.freeBuffer
    exact .none hl (congrArg List.length hn) rfl

/-- One block is replaced by what remains of it. -/
theorem held_worker {s s' : St ρ} {t : Task ρ} {x : Option (Task ρ)} {rest : List (Task ρ)}
    (hp : s.workerQueue.Perm (t :: rest)) (hp' : s'.workerQueue.Perm (x.toList ++ rest)) :
    s.held = rest.countP Task.holds + t.count ∧
      s'.held = rest.countP Task.holds + restCount x := by
  constructor
  · rw [St.held, hp.countP_eq, List.countP_cons]
    rfl
  · rw [St.held, hp'.countP_eq]
    cases x with
    | none => rfl
    | some t' => exact List.countP_cons

theorem held_append {s s' : St ρ} {ts : List (Task ρ)} (h : s'.workerQueue = s.workerQueue ++ ts)
    (hts : ts.countP Task.holds = 0) : s'.held = s.held := by
  rw [St.held, h, List.countP_append, hts]
  rfl

/-- **What a step does to the records.** -/
theorem loginEffect_of_step {s s' : St ρ} {l : Label ρ} (hok : Allocates s l)
    (h : step s l = some s') : LoginEffect s s' s.held s'.held (loginEvents s l) := by
  cases l with
  | createInstance c reciver => cases h; exact .none rfl rfl rfl
  | request reciver signalId m =>
    cases h
    exact .none rfl rfl (held_append rfl rfl)
  | worker i o =>
    obtain ⟨t, rest, s₁, x, hi, hp, hw, hp', hs'⟩ := worker_inv h
    obtain ⟨hheld, hheld'⟩ := held_worker hp hp'
    have hstart : t.starts = true → o ≠ .fail := by
      intro ht ho
      rw [ho, Allocates, hi, Option.any_some, ht] at hok
      cases hok
    have heffect := (workerStep_logins hstart hw).add (rest.countP Task.holds)
    rw [← hheld, ← hheld'] at heffect
    have hevents : loginEvents s (.worker i o) = taskEvents s t o := by rw [loginEvents, hi]; rfl
    rw [hevents]
    have hl : s'.login = s₁.login := by rw [hs']
    have hn : s'.logins = s₁.logins := by rw [hs']
    generalize taskEvents s t o = es at heffect
    cases heffect with
    | none hl₁ hn₁ hh => exact .none (hl.trans hl₁) ((congrArg _ hn).trans hn₁) hh
    | dblogin hl₁ hn₁ hh => exact .dblogin (hl.trans hl₁) ((congrArg _ hn).trans hn₁) hh
    | use he hl₁ hn₁ hh hpos => exact .use he (hl.trans hl₁) ((congrArg _ hn).trans hn₁) hh hpos
    | dbloginfree hl₁ hn₁ hh => exact .dbloginfree (hl.trans hl₁) ((congrArg _ hn).trans hn₁) hh
  | callback i connected =>
    obtain ⟨c, rest, -, -, rfl⟩ := callback_inv h
    obtain ⟨hl, hn⟩ := callbackStep_logins { s with callbackQueue := rest } connected c
    have hq := (callbackStep_queues { s with callbackQueue := rest } connected c).2
    refine .none hl (congrArg List.length hn) (held_append hq ?_)
    cases c with
    | connectionSuccess r => cases connected <;> rfl
    | _ => rfl

/-! ## Whole runs -/

/-- With one block at a time: none is held, or the record of `login`. -/
inductive Single (s : St ρ) (es : List LoginEvent) : Prop
  | idle (hh : s.held = 0) (hc : check [] (ops es) = some []) : Single s es
  | busy {l : Nat} {overlapping : Bool} (hh : s.held = 1) (hl : s.login = some l)
      (hc : check [] (ops es) = some [l]) (hmade : .dblogin l overlapping ∈ es)
      (hfree : .dbloginfree (some l) ∉ es) : Single s es

/-- A record that no block can free any more. -/
def Lost (s : St ρ) (es : List LoginEvent) (l : Nat) : Prop :=
  (∃ overlapping, .dblogin l overlapping ∈ es) ∧ .dbloginfree (some l) ∉ es ∧
    s.login ≠ some l ∧ l < s.logins.length

structure Accounts (s : St ρ) (es : List LoginEvent) : Prop where
  made : ∀ l ∈ s.login, l < s.logins.length
  freed : ∀ l, .dbloginfree (some l) ∈ es → l < s.logins.length
  set : 0 < s.held → s.login ≠ none
  count : (ops es).countP Op.acquires = (ops es).countP Op.releases + s.held
  alone : Alone es → Single s es
  lost : ¬ Alone es → ∃ l, Lost s es l

section
variable {s s' : St ρ} {es es' : List LoginEvent} {e : LoginEvent}

theorem ops_append (es es' : List LoginEvent) : ops (es ++ es') = ops es ++ ops es' := List.map_append

theorem check_one {held : List Nat} (h : check [] (ops es) = some held) :
    check [] (ops (es ++ [e])) = e.op.apply held := by
  rw [ops_append, check_append, h]
  exact check_singleton held e.op

theorem Alone.of_append (h : Alone (es ++ es')) : Alone es :=
  fun l hm => h l (List.mem_append_left _ hm)

theorem alone_append (h : Alone es) (h' : ∀ l, e ≠ .dblogin l true) : Alone (es ++ [e]) := by
  intro l hm
  rcases List.mem_append.mp hm with hm | hm
  · exact h l hm
  · exact h' l (List.mem_singleton.mp hm).symm

/-- What is lost stays lost, unless `login` points to it again. -/
theorem Lost.step {l : Nat} (h : Lost s es l) (hfree : .dbloginfree (some l) ∉ es')
    (hl : s'.login ≠ some l) (hn : s.logins.length ≤ s'.logins.length) : Lost s' (es ++ es') l := by
  obtain ⟨⟨overlapping, hmade⟩, hkept, -, hlt⟩ := h
  refine ⟨⟨overlapping, List.mem_append_left _ hmade⟩, ?_, hl, hlt.trans_le hn⟩
  rw [List.mem_append, not_or]
  exact ⟨hkept, hfree⟩

theorem accounts_dblogin (h : Accounts s es) (hl : s'.login = some s.logins.length)
    (hn : s'.logins.length = s.logins.length + 1) (hh : s'.held = s.held + 1) :
    Accounts s' (es ++ [.dblogin s.logins.length (decide (0 < s.held))]) where
  made l hm := by
    obtain rfl := Option.some.inj (hl.symm.trans hm)
    omega
  freed l hm := by
    rcases List.mem_append.mp hm with hm | hm
    · exact (h.freed l hm).trans (by omega)
    · cases List.mem_singleton.mp hm
  set _ := by rw [hl]; exact Option.some_ne_none _
  count := by
    rw [ops_append, List.countP_append, List.countP_append, h.count, hh]
    show _ + 1 = _ + 0 + _
    omega
  alone halone := by
    rcases h.alone halone.of_append with ⟨hidle, hc⟩ | ⟨hbusy, -, -, -, -⟩
    · have hlast : LoginEvent.dblogin s.logins.length (decide (0 < s.held)) ∈
          es ++ [.dblogin s.logins.length (decide (0 < s.held))] :=
        List.mem_append_right _ List.mem_cons_self
      refine .busy (by omega) hl (check_one hc) hlast fun hm => ?_
      rcases List.mem_append.mp hm with hm | hm
      · exact Nat.lt_irrefl _ (h.freed _ hm)
      · cases List.mem_singleton.mp hm
    · refine absurd ?_ (halone s.logins.length)
      rw [hbusy]
      exact List.mem_append_right _ List.mem_cons_self
  lost hnot := by
    have hother {l : Nat} (hlt : l < s.logins.length) : s'.login ≠ some l := by
      rw [hl]
      intro he
      exact Nat.lt_irrefl _ (Option.some.inj he ▸ hlt)
    have hnew {l : Nat} : .dbloginfree (some l) ∉
        [LoginEvent.dblogin s.logins.length (decide (0 < s.held))] := by
      intro hm
      cases List.mem_singleton.mp hm
    by_cases halone : Alone es
    · -- the record of the block that is still there is lost now
      rcases h.alone halone with ⟨hidle, -⟩ | ⟨-, hlogin, -, hmade, hfree⟩
      · refine absurd (alone_append halone fun l he => ?_) hnot
        rw [hidle] at he
        cases he
      · have hlt := h.made _ hlogin
        refine ⟨_, ⟨_, List.mem_append_left _ hmade⟩, ?_, hother hlt, by omega⟩
        rw [List.mem_append, not_or]
        exact ⟨hfree, hnew⟩
    · obtain ⟨l, hlost⟩ := h.lost halone
      exact ⟨l, hlost.step hnew (hother hlost.2.2.2) (by omega)⟩

theorem accounts_use (h : Accounts s es) (he : e.op = .use s.login) (hl : s'.login = s.login)
    (hn : s'.logins.length = s.logins.length) (hh : s'.held = s.held) (hpos : 0 < s.held) :
    Accounts s' (es ++ [e]) where
  made l hm := by rw [hn]; exact h.made l (hl ▸ hm)
  freed l hm := by
    rw [hn]
    rcases List.mem_append.mp hm with hm | hm
    · exact h.freed l hm
    · rw [← List.mem_singleton.mp hm] at he
      cases he
  set _ := by rw [hl]; exact h.set hpos
  count := by
    have hop : ops [e] = [.use s.login] := congrArg (· :: []) he
    rw [ops_append, hop, List.countP_append, List.countP_append, h.count, hh]
    show _ + 0 = _ + 0 + _
    omega
  alone halone := by
    rcases h.alone halone.of_append with ⟨hidle, -⟩ | ⟨hbusy, hlogin, hc, hmade, hfree⟩
    · omega
    · refine .busy (hh.trans hbusy) (hl.trans hlogin) ?_ (List.mem_append_left _ hmade) fun hm => ?_
      · rw [check_one hc, he, hlogin]
        exact if_pos List.mem_cons_self
      · rcases List.mem_append.mp hm with hm | hm
        · exact hfree hm
        · rw [← List.mem_singleton.mp hm] at he
          cases he
  lost hnot := by
    have hno (l : Nat) : e ≠ .dbloginfree (some l) := by
      intro hf
      rw [hf] at he
      cases he
    have halone : ¬ Alone es := by
      refine fun halone => hnot (alone_append halone fun l hf => ?_)
      rw [hf] at he
      cases he
    obtain ⟨l, hlost⟩ := h.lost halone
    refine ⟨l, hlost.step (fun hm => hno l (List.mem_singleton.mp hm).symm) ?_ (Nat.le_of_eq hn.symm)⟩
    rw [hl]
    exact hlost.2.2.1

theorem accounts_dbloginfree (h : Accounts s es) (hl : s'.login = s.login)
    (hn : s'.logins.length = s.logins.length) (hh : s.held = s'.held + 1) :
    Accounts s' (es ++ [.dbloginfree s.login]) := by
  obtain ⟨l, hlogin⟩ := Option.ne_none_iff_exists'.mp (h.set (by omega))
  rw [hlogin]
  constructor
  case made => intro l' hm; rw [hn]; exact h.made l' (hl ▸ hm)
  case freed =>
    intro l' hm
    rw [hn]
    rcases List.mem_append.mp hm with hm | hm
    · exact h.freed l' hm
    · cases List.mem_singleton.mp hm
      exact h.made l hlogin
  case set => intro _; rw [hl, hlogin]; exact Option.some_ne_none l
  case count =>
    rw [ops_append, List.countP_append, List.countP_append, h.count, hh]
    show _ + 0 = _ + 1 + _
    omega
  case alone =>
    intro halone
    rcases h.alone halone.of_append with ⟨hidle, -⟩ | ⟨hbusy, hlogin', hc, -, -⟩
    · omega
    · obtain rfl := Option.some.inj (hlogin.symm.trans hlogin')
      refine .idle (by omega) ?_
      rw [check_one hc]
      simp [LoginEvent.op, Op.apply]
  case lost =>
    intro hnot
    have halone : ¬ Alone es := by
      refine fun halone => hnot (alone_append halone fun l hf => ?_)
      cases hf
    obtain ⟨l', hlost⟩ := h.lost halone
    refine ⟨l', hlost.step (fun hm => ?_) ?_ (Nat.le_of_eq hn.symm)⟩
    · cases List.mem_singleton.mp hm
      exact hlost.2.2.1 hlogin
    · rw [hl]
      exact hlost.2.2.1

theorem accounts_step (h : Accounts s es) {l : Label ρ} (hok : Allocates s l)
    (hs : step s l = some s') : Accounts s' (es ++ loginEvents s l) := by
  have heffect := loginEffect_of_step hok hs
  generalize loginEvents s l = es' at heffect
  cases heffect with
  | none hl hn hh =>
    rw [List.append_nil]
    refine ⟨fun l hm => ?_, fun l hm => ?_, fun hpos => ?_, ?_, fun halone => ?_, fun hnot => ?_⟩
    · rw [hn]; exact h.made l (hl ▸ hm)
    · rw [hn]; exact h.freed l hm
    · rw [hl]; exact h.set (hh ▸ hpos)
    · rw [hh]; exact h.count
    · rcases h.alone halone with ⟨hidle, hc⟩ | ⟨hbusy, hlogin, hc, hmade, hfree⟩
      · exact .idle (hh.trans hidle) hc
      · exact .busy (hh.trans hbusy) (hl.trans hlogin) hc hmade hfree
    · obtain ⟨l, hmade, hfree, hlogin, hlt⟩ := h.lost hnot
      exact ⟨l, hmade, hfree, hl ▸ hlogin, hn ▸ hlt⟩
  | dblogin hl hn hh => exact accounts_dblogin h hl hn hh
  | use he hl hn hh hpos => exact accounts_use h he hl hn hh hpos
  | dbloginfree hl hn hh => exact accounts_dbloginfree h hl hn hh

theorem accounts_inductive :
    (((lts ρ).restrict Allocates).observe loginEvents).Inductive fun x => Accounts x.1 x.2 where
  init := by
    intro x hx
    obtain ⟨s, es⟩ := x
    obtain ⟨⟨c, d, rfl⟩, rfl⟩ := hx
    refine ⟨?_, ?_, ?_, rfl, fun _ => .idle rfl rfl, fun hnot => (hnot ?_).elim⟩
    · intro l hm; cases hm
    · intro l hm; cases hm
    · intro hpos; cases hpos
    · intro l hm; cases hm
  step := by
    intro x l x' h hs
    obtain ⟨s', es'⟩ := x'
    obtain ⟨⟨hok, hstep⟩, rfl⟩ := hs
    exact accounts_step h hok hstep

/-- With all blocks done nothing is held if there was no error. -/
theorem check_of_safe (h : Accounts s es) (hend : s.held = 0) (hsafe : Safe es) :
    check [] (ops es) = some [] := by
  obtain ⟨held, hc⟩ := Option.isSome_iff_exists.mp hsafe
  have hlength := length_of_check hc
  have hcount := h.count
  rw [hc, List.eq_nil_of_length_eq_zero (show held.length = 0 by simp only [List.length_nil] at hlength; omega)]

theorem allFreed_of_check (hc : check [] (ops es) = some []) : AllFreed es := by
  intro l overlapping hm
  have hreleased := released_of_check (a := l) hc (List.mem_map.mpr ⟨_, hm, rfl⟩)
  obtain ⟨e, he, hop⟩ := List.mem_map.mp hreleased
  cases e with
  | dbloginfree x => cases hop; exact he
  | _ => cases hop

theorem alone_of_allFreed (h : Accounts s es) (hfreed : AllFreed es) : Alone es := by
  by_contra hnot
  obtain ⟨l, ⟨overlapping, hmade⟩, hfree, -⟩ := h.lost hnot
  exact hfree (hfreed l overlapping hmade)

theorem check_of_alone (h : Accounts s es) (hend : s.held = 0) (halone : Alone es) :
    check [] (ops es) = some [] := by
  rcases h.alone halone with ⟨-, hc⟩ | ⟨hbusy, -⟩
  · exact hc
  · omega

end

/-- **Login records.** In every run, once no block has a record to free: no
record was used after it was freed or freed twice exactly if no `dblogin` was
called while another block had a record to free, and exactly then every record
was freed. -/
theorem logins_iff {x : St ρ × List LoginEvent}
    (h : (((lts ρ).restrict Allocates).observe loginEvents).Reachable x) (hend : x.1.held = 0) :
    (Safe x.2 ↔ Alone x.2) ∧ (AllFreed x.2 ↔ Alone x.2) := by
  have ha := accounts_inductive.reachable h
  have hfreed (halone : Alone x.2) := allFreed_of_check (check_of_alone ha hend halone)
  refine ⟨⟨fun hsafe => ?_, fun halone => ?_⟩, ⟨alone_of_allFreed ha, hfreed⟩⟩
  · exact alone_of_allFreed ha (allFreed_of_check (check_of_safe ha hend hsafe))
  · rw [Safe, check_of_alone ha hend halone]
    rfl

/-- Two requests; the second block calls `dblogin` when the first has its record,
and no server answers. -/
def twoLogins : List (Label Unit) :=
  let rest := [.worker 0 .ok, .worker 0 .ok, .worker 0 .ok, .worker 0 .fail, .worker 0 .ok, .worker 0 .ok]
  [.request () 0 .getTableNamesInSchema, .request () 1 .getTableNamesInSchema, .worker 0 .ok,
    .worker 1 .ok] ++ rest ++ rest

theorem logins_iff_overlapping : ∃ x, (((lts Unit).restrict Allocates).observe loginEvents).Reachable x ∧
    x.1.held = 0 ∧ ¬ Safe x.2 ∧ ¬ AllFreed x.2 := by
  have hex : ∃ x, (((lts Unit).restrict Allocates).observe loginEvents).Reachable x ∧
      (x.1.held = 0 ∧ LoginEvent.dblogin 1 true ∈ x.2) :=
    LTS.exists_of_execObs (start ⟨[], [], [], []⟩ ()) twoLogins _ ⟨_, _, rfl⟩ (by decide)
  obtain ⟨x, hx, hend, hmem⟩ := hex
  have h := logins_iff hx hend
  have hnot : ¬ Alone x.2 := fun halone => halone 1 hmem
  exact ⟨x, hx, hend, fun hsafe => hnot (h.1.mp hsafe), fun hfreed => hnot (h.2.mp hfreed)⟩

end MysqlConnection.L2.Client
