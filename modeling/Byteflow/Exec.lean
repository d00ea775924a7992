import Mathlib

-- Computations that carry a state and may stop with an error. The state
-- reached before the error is kept, as with a Rust method on &mut self that
-- returns early.
abbrev Exec (σ ε : Type) := ExceptT ε (StateM σ)

namespace Exec

variable {σ ε α β : Type}

def exec (m : Exec σ ε α) (s : σ) : Except ε α × σ := (ExceptT.run m).run s

def reading (f : σ → Except ε α) : Exec σ ε α := fun s => (f s, s)

-- The source's if let Err(e) = m { handler }: the handler sees the state m left.
def onError (m : Exec σ ε α) (handler : ε → Exec σ ε α) : Exec σ ε α := tryCatch m handler

@[simp] theorem exec_pure (a : α) (s : σ) : exec (pure a : Exec σ ε α) s = (.ok a, s) := rfl

@[simp] theorem exec_throw (e : ε) (s : σ) : exec (throw e : Exec σ ε α) s = (.error e, s) := rfl

@[simp] theorem exec_reading (f : σ → Except ε α) (s : σ) : exec (reading f) s = (f s, s) := rfl

@[simp] theorem exec_get (s : σ) : exec (get : Exec σ ε σ) s = (.ok s, s) := rfl

@[simp] theorem exec_set (s t : σ) : exec (set t : Exec σ ε PUnit) s = (.ok ⟨⟩, t) := rfl

@[simp] theorem exec_modify (f : σ → σ) (s : σ) : exec (modify f : Exec σ ε PUnit) s = (.ok ⟨⟩, f s) := rfl

theorem exec_bind (m : Exec σ ε α) (f : α → Exec σ ε β) (s : σ) :
    exec (m >>= f) s = match exec m s with
      | (.ok a, t) => exec (f a) t
      | (.error e, t) => (.error e, t) := by
  change (ExceptT.bindCont f (exec m s).1).run (exec m s).2 = _
  cases exec m s with
  | mk result t => cases result <;> rfl

theorem exec_bind_ok (m : Exec σ ε α) (f : α → Exec σ ε β) (s t : σ) (a : α)
    (done : exec m s = (.ok a, t)) : exec (m >>= f) s = exec (f a) t := by
  rw [exec_bind, done]

theorem exec_get_bind (f : σ → Exec σ ε β) (s : σ) : exec (get >>= f) s = exec (f s) s := rfl

theorem exec_bind_returns {m : Exec σ ε α} {f : α → Exec σ ε β} {s t : σ} {b : β} (done : exec (m >>= f) s = (.ok b, t)) :
    ∃ a u, exec m s = (.ok a, u) ∧ exec (f a) u = (.ok b, t) := by
  rw [exec_bind] at done
  rcases ran : exec m s with ⟨e | a, u⟩ <;> rw [ran] at done
  · cases done
  · exact ⟨a, u, rfl, done⟩

theorem exec_on_error (m : Exec σ ε α) (handler : ε → Exec σ ε α) (s : σ) :
    exec (onError m handler) s = match exec m s with
      | (.ok a, t) => (.ok a, t)
      | (.error e, t) => exec (handler e) t := by
  simp only [exec, onError, ExceptT.run, StateT.run, tryCatch, tryCatchThe, MonadExceptOf.tryCatch,
    ExceptT.tryCatch, ExceptT.mk, bind, StateT.bind]
  rcases m s with ⟨result | result, t⟩ <;> rfl

def Ends (Q : α → σ → Prop) (E : ε → σ → Prop) : Except ε α × σ → Prop
  | (.ok a, t) => Q a t
  | (.error e, t) => E e t

-- Total correctness with an error postcondition: from a state in P the
-- computation either returns in Q or stops with an error in E.
def Triple (P : σ → Prop) (m : Exec σ ε α) (Q : α → σ → Prop) (E : ε → σ → Prop) : Prop :=
  ∀ s, P s → Ends Q E (exec m s)

section Rules

variable {P : σ → Prop} {Q : β → σ → Prop} {E : ε → σ → Prop}
  {m : Exec σ ε β} {Q' : β → σ → Prop} {E' F : ε → σ → Prop} {s : σ} {f : α → Exec σ ε β} {R : α → σ → Prop}

theorem triple_pure (a : β) (post : ∀ s, P s → Q a s) : Triple P (pure a : Exec σ ε β) Q E := post

theorem triple_throw (e : ε) (post : ∀ s, P s → E e s) : Triple P (throw e : Exec σ ε β) Q E := post

theorem triple_modify (f : σ → σ) (R : PUnit → σ → Prop) (post : ∀ s, P s → R ⟨⟩ (f s)) :
    Triple P (modify f : Exec σ ε PUnit) R E := post

theorem triple_reading (f : σ → Except ε β) (ok : ∀ s a, P s → f s = .ok a → Q a s)
    (failed : ∀ s e, P s → f s = .error e → E e s) : Triple P (reading f) Q E := by
  intro s pre
  cases result : f s with
  | ok a => simpa only [exec_reading, result, Ends] using ok s a pre result
  | error e => simpa only [exec_reading, result, Ends] using failed s e pre result

theorem triple_bind {m : Exec σ ε α}
    (first : Triple P m R E) (next : ∀ a, Triple (R a) (f a) Q E) : Triple P (m >>= f) Q E := by
  intro s pre
  have middle := first s pre
  rw [exec_bind]
  revert middle
  rcases exec m s with ⟨e | a, t⟩
  · exact fun failed => failed
  · exact next a t

theorem triple_get_bind {f : σ → Exec σ ε β}
    (next : ∀ s, P s → Triple (fun t => t = s) (f s) Q E) : Triple P (get >>= f) Q E := by
  intro s pre
  rw [exec_bind_ok get f s s s (exec_get s)]
  exact next s pre s rfl

theorem triple_on_error {handler : ε → Exec σ ε β} (body : Triple P m Q F) (handled : ∀ e, Triple (F e) (handler e) Q E) :
    Triple P (onError m handler) Q E := by
  intro s pre
  have middle := body s pre
  rw [exec_on_error]
  revert middle
  rcases exec m s with ⟨e | a, t⟩
  · exact handled e t
  · exact fun done => done

theorem triple_ite (c : Prop) [Decidable c] {n : Exec σ ε β} (yes : c → Triple P m Q E) (no : ¬ c → Triple P n Q E) :
    Triple P (if c then m else n) Q E := by
  by_cases holds : c
  · rw [if_pos holds]
    exact yes holds
  · rw [if_neg holds]
    exact no holds

-- The same rules from one state, for proofs that follow a single execution.
theorem ends_bind {m : Exec σ ε α}
    (first : Ends R F (exec m s)) (next : ∀ a t, R a t → Ends Q E (exec (f a) t)) (failed : ∀ e t, F e t → E e t) :
    Ends Q E (exec (m >>= f) s) := by
  rw [exec_bind]
  revert first
  rcases exec m s with ⟨e | a, t⟩
  · exact failed e t
  · exact next a t

theorem ends_next {m : Exec σ ε α} (first : Ends R E (exec m s))
    (next : ∀ a t, R a t → Ends Q E (exec (f a) t)) : Ends Q E (exec (m >>= f) s) :=
  ends_bind first next fun _ _ failed => failed

theorem ends_and {outcome : Except ε β × σ} (first : Ends Q E outcome)
    (second : Ends Q' E' outcome) : Ends (fun a t => Q a t ∧ Q' a t) (fun e t => E e t ∧ E' e t) outcome := by
  rcases outcome with ⟨e | a, t⟩
  · exact ⟨first, second⟩
  · exact ⟨first, second⟩

theorem ends_mono {outcome : Except ε β × σ} (ends : Ends Q' E' outcome)
    (post : ∀ a t, Q' a t → Q a t) (failed : ∀ e t, E' e t → E e t) : Ends Q E outcome := by
  rcases outcome with ⟨e | a, t⟩
  · exact failed e t ends
  · exact post a t ends

theorem ends_self (outcome : Except ε β × σ) :
    Ends (fun a t => outcome = (.ok a, t)) (fun e t => outcome = (.error e, t)) outcome := by
  rcases outcome with ⟨e | a, t⟩ <;> rfl

theorem ends_reading_bind {f : σ → Except ε α} {g : α → Exec σ ε β}
    (next : ∀ a, f s = .ok a → Ends Q E (exec (g a) s)) (failed : ∀ e, f s = .error e → E e s) :
    Ends Q E (exec (reading f >>= g) s) := by
  rw [exec_bind, exec_reading]
  cases result : f s with
  | ok a => exact next a result
  | error e => exact failed e result

theorem ends_on_error {handler : ε → Exec σ ε β}
    (body : Ends Q F (exec m s)) (handled : ∀ e t, F e t → Ends Q E (exec (handler e) t)) :
    Ends Q E (exec (onError m handler) s) := by
  rw [exec_on_error]
  revert body
  rcases exec m s with ⟨e | a, t⟩
  · exact handled e t
  · exact fun done => done

theorem triple_fact {fact : Prop} (body : fact → Triple P m Q E) :
    Triple (fun s => fact ∧ P s) m Q E := fun s pre => body pre.1 s pre.2

theorem triple_consequence {P' : σ → Prop} (body : Triple P' m Q' E') (pre : ∀ s, P s → P' s) (post : ∀ a s, Q' a s → Q a s)
    (failed : ∀ e s, E' e s → E e s) : Triple P m Q E := by
  intro s holds
  have result := body s (pre s holds)
  revert result
  rcases exec m s with ⟨e | a, t⟩
  · exact failed e t
  · exact post a t

end Rules

-- Computations that change the state only through the given atoms.
inductive Built (Atom : (γ : Type) → Exec σ ε γ → Prop) : (γ : Type) → Exec σ ε γ → Prop where
  | pure {γ : Type} (a : γ) : Built Atom γ (pure a)
  | throw {γ : Type} (e : ε) : Built Atom γ (throw e)
  | get : Built Atom σ get
  | reading {γ : Type} (f : σ → Except ε γ) : Built Atom γ (reading f)
  | atom {γ : Type} {m : Exec σ ε γ} (isAtom : Atom γ m) : Built Atom γ m
  | bind {γ δ : Type} {m : Exec σ ε γ} {f : γ → Exec σ ε δ} (first : Built Atom γ m) (next : ∀ a, Built Atom δ (f a)) :
      Built Atom δ (m >>= f)

-- What every atom keeps, whether it returns or fails, the whole computation keeps.
theorem built_keeps {Atom : (γ : Type) → Exec σ ε γ → Prop} {holds : σ → Prop}
    (atoms : ∀ γ m, Atom γ m → Triple holds m (fun _ => holds) (fun _ => holds)) {m : Exec σ ε α}
    (built : Built Atom α m) : Triple holds m (fun _ => holds) (fun _ => holds) := by
  induction built with
  | pure a => exact triple_pure a fun _ pre => pre
  | throw e => exact triple_throw e fun _ pre => pre
  | get => exact fun _ pre => pre
  | reading f => exact triple_reading f (fun _ _ pre _ => pre) fun _ _ pre _ => pre
  | atom isAtom => exact atoms _ _ isAtom
  | bind _ _ first next => exact triple_bind first next

theorem built_ite {Atom : (γ : Type) → Exec σ ε γ → Prop} (c : Prop) [Decidable c] {m n : Exec σ ε α}
    (yes : Built Atom α m) (no : Built Atom α n) : Built Atom α (if c then m else n) := by
  by_cases holds : c
  · rw [if_pos holds]
    exact yes
  · rw [if_neg holds]
    exact no

section Growth

variable {Later : σ → σ → Prop} [IsPreorder σ Later] {base : σ} {m : Exec σ ε α} {R : σ → α → Prop}

-- From every state later than base the computation leaves a later one, in
-- which its result satisfies R.
def Yields (Later : σ → σ → Prop) (base : σ) (R : σ → α → Prop) (m : Exec σ ε α) : Prop :=
  ∀ s, Later base s → Ends (fun a t => Later s t ∧ R t a) (fun _ _ => True) (exec m s)

theorem yields_pure (a : α) (holds : ∀ s, Later base s → R s a) :
    Yields Later base R (pure a : Exec σ ε α) := fun s later => ⟨refl_of Later s, holds s later⟩

omit [IsPreorder σ Later] in
theorem yields_throw (e : ε) : Yields Later base R (throw e : Exec σ ε α) := fun _ _ => trivial

theorem yields_bind {A : σ → α → Prop} {B : σ → β → Prop} {f : α → Exec σ ε β}
    (first : Yields Later base A m) (next : ∀ a mid, Later base mid → A mid a → Yields Later mid B (f a)) :
    Yields Later base B (m >>= f) := by
  intro s later
  refine ends_bind (first s later) (fun a mid middle => ?_) (fun _ _ _ => trivial)
  have rest := next a mid (trans_of Later later middle.1) middle.2 mid (refl_of Later mid)
  refine ends_mono rest (fun b t last => ?_) (fun _ _ _ => trivial)
  exact ⟨trans_of Later middle.1 last.1, last.2⟩

theorem yields_later {mid : σ} (yields : Yields Later base R m)
    (later : Later base mid) : Yields Later mid R m := fun s after => yields s (trans_of Later later after)

omit [IsPreorder σ Later] in
theorem yields_ite (c : Prop) [Decidable c] {n : Exec σ ε α} (yes : c → Yields Later base R m)
    (no : ¬ c → Yields Later base R n) : Yields Later base R (if c then m else n) := by
  by_cases holds : c
  · rw [if_pos holds]
    exact yes holds
  · rw [if_neg holds]
    exact no holds

end Growth

section Raising

variable {allowed : ε → Prop} {s : σ} {m : Exec σ ε α}

def Raises (allowed : ε → Prop) (m : Exec σ ε α) (s : σ) : Prop := ∀ e t, exec m s = (.error e, t) → allowed e

theorem raises_pure (a : α) : Raises allowed (pure a : Exec σ ε α) s := by
  intro e t failed
  cases failed

theorem raises_throw (e : ε) (holds : allowed e) : Raises allowed (throw e : Exec σ ε α) s := by
  intro e t failed
  cases failed
  exact holds

theorem raises_modify (f : σ → σ) : Raises allowed (modify f : Exec σ ε PUnit) s := by
  intro e t failed
  cases failed

theorem raises_set (next : σ) : Raises allowed (set next : Exec σ ε PUnit) s := by
  intro e t failed
  cases failed

theorem raises_reading {f : σ → Except ε α} (only : ∀ e, f s = .error e → allowed e) : Raises allowed (reading f) s := by
  intro e t failed
  exact only e (Prod.mk.inj failed).1

theorem raises_bind {f : α → Exec σ ε β} (first : Raises allowed m s)
    (next : ∀ a t, exec m s = (.ok a, t) → Raises allowed (f a) t) : Raises allowed (m >>= f) s := by
  intro e t failed
  rw [exec_bind] at failed
  rcases ran : exec m s with ⟨stopped | a, middle⟩
  · rw [ran] at failed
    cases failed
    exact first _ _ ran
  · rw [ran] at failed
    exact next a middle ran e t failed

theorem raises_reading_bind {f : σ → Except ε α} {g : α → Exec σ ε β} (only : ∀ e, f s = .error e → allowed e)
    (next : ∀ a, f s = .ok a → Raises allowed (g a) s) : Raises allowed (reading f >>= g) s := by
  refine raises_bind (raises_reading only) fun a t ran => ?_
  obtain ⟨found, rfl⟩ := Prod.mk.inj ran
  exact next a found

theorem raises_get_bind {f : σ → Exec σ ε β} (next : Raises allowed (f s) s) : Raises allowed (get >>= f) s := by
  intro e t failed
  rw [exec_bind_ok get f s s s (exec_get s)] at failed
  exact next e t failed

theorem raises_on_error {handler : ε → Exec σ ε α}
    (handled : ∀ e t, exec m s = (.error e, t) → Raises allowed (handler e) t) : Raises allowed (onError m handler) s := by
  intro e t failed
  rw [exec_on_error] at failed
  rcases ran : exec m s with ⟨stopped | a, middle⟩
  · rw [ran] at failed
    exact handled stopped middle ran e t failed
  · rw [ran] at failed
    cases failed

theorem raises_ite (c : Prop) [Decidable c] {n : Exec σ ε α} (yes : c → Raises allowed m s) (no : ¬ c → Raises allowed n s) :
    Raises allowed (if c then m else n) s := by
  by_cases holds : c
  · rw [if_pos holds]
    exact yes holds
  · rw [if_neg holds]
    exact no holds

theorem raises_mono {narrow : ε → Prop} (raises : Raises narrow m s) (weaker : ∀ e, narrow e → allowed e) :
    Raises allowed m s := fun e t failed => weaker e (raises e t failed)

end Raising

theorem except_bind_ok_iff (m : Except ε α) (f : α → Except ε β) (b : β) :
    m >>= f = .ok b ↔ ∃ a, m = .ok a ∧ f a = .ok b := by
  cases m with
  | error | ok => simp [bind, Except.bind]

theorem except_bind_error_iff (m : Except ε α) (f : α → Except ε β) (e : ε) :
    m >>= f = .error e ↔ m = .error e ∨ ∃ a, m = .ok a ∧ f a = .error e := by
  cases m with
  | error | ok => simp [bind, Except.bind]

theorem forM_except_ok_iff (items : List α) (check : α → Except ε Unit) :
    items.forM check = .ok () ↔ ∀ item ∈ items, check item = .ok () := by
  induction items with
  | nil => simp [List.forM, pure, Except.pure]
  | cons item rest ih =>
    change (check item >>= fun _ => rest.forM check) = .ok () ↔ _
    rw [except_bind_ok_iff, List.forall_mem_cons, ← ih]
    exact ⟨fun ⟨_, head, tail⟩ => ⟨head, tail⟩, fun ⟨head, tail⟩ => ⟨(), head, tail⟩⟩

theorem mapM_except_error (items : List α) (f : α → Except ε β) (e : ε) (failed : items.mapM f = .error e) :
    ∃ item ∈ items, f item = .error e := by
  induction items with
  | nil => simp [pure, Except.pure] at failed
  | cons item rest ih =>
    rw [List.mapM_cons, except_bind_error_iff] at failed
    rcases failed with here | ⟨b, _, later⟩
    · exact ⟨item, by simp, here⟩
    · rw [except_bind_error_iff] at later
      rcases later with inRest | ⟨bs, _, impossible⟩
      · obtain ⟨found, member, fails⟩ := ih inRest
        exact ⟨found, by simp [member], fails⟩
      · simp [pure, Except.pure] at impossible

theorem mapM_ok_iff {items : List α} {f : α → Except ε β} :
    (∃ results, items.mapM f = .ok results) ↔ ∀ item ∈ items, ∃ result, f item = .ok result := by
  induction items with
  | nil => exact iff_of_true ⟨[], List.mapM_nil⟩ (List.forall_mem_nil _)
  | cons item rest ih =>
    rw [List.forall_mem_cons, ← ih]
    simp only [List.mapM_cons, except_bind_ok_iff]
    constructor
    · rintro ⟨_, head, first, tail, others, _⟩
      exact ⟨⟨head, first⟩, tail, others⟩
    · rintro ⟨⟨head, first⟩, tail, others⟩
      exact ⟨_, head, first, tail, others, rfl⟩

theorem mapM_except_ok (items : List α) (f : α → Except ε β) (results : List β) (done : items.mapM f = .ok results) :
    ∀ result ∈ results, ∃ item ∈ items, f item = .ok result := by
  induction items generalizing results with
  | nil =>
    rw [List.mapM_nil] at done
    cases done
    exact fun result member => by cases member
  | cons item rest ih =>
    rw [List.mapM_cons, except_bind_ok_iff] at done
    obtain ⟨head, first, done⟩ := done
    obtain ⟨tail, others, done⟩ := (except_bind_ok_iff _ _ _).mp done
    cases done
    intro result member
    rcases List.mem_cons.mp member with rfl | inTail
    · exact ⟨item, List.mem_cons_self, first⟩
    · obtain ⟨found, inRest, same⟩ := ih tail others result inTail
      exact ⟨found, List.mem_cons_of_mem item inRest, same⟩

end Exec
