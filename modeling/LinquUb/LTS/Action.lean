import Mathlib.Logic.Relation

/-!
# Programs with state and errors

An `Action σ ε α` reads and changes a state `σ` and may stop with an error `ε`; the state reached
by then is kept, as in a method on `&mut self` that returns a `Result`.

* `exec_bind` and its companions evaluate a program symbolically;
* `zoom` runs a program on a part of the state;
* `Within R m` : every execution of `m` goes from its first to its last state along `R`;
* `Throws P m` : every error of `m` is a `P`;
* `Atomic R m s` : when `m` fails from `s`, it has gone along `R` only;
* `Ignores g (exec m) s` : the execution of `m` from `s` does not depend on what `g` changes;
* `Ensures m s Q` : when `m` succeeds from `s`, its result and its last state satisfy `Q`;
* `Along R m` : every execution of `m` that succeeds goes along `R`;
* `Barring E R m` : every execution of `m` goes along `R`, unless it ends in an error `E`.
-/

namespace LinquUb

abbrev Action (σ ε α : Type) := ExceptT ε (StateM σ) α

namespace Action

variable {σ ε α β : Type}

/-- Run an action from a state. -/
def exec (m : Action σ ε α) (s : σ) : Except ε α × σ := m.run.run s

@[simp] theorem exec_pure (a : α) (s : σ) : exec (pure a : Action σ ε α) s = (.ok a, s) := rfl

@[simp] theorem exec_throw (e : ε) (s : σ) :
    exec (throw e : Action σ ε α) s = (.error e, s) := rfl

@[simp] theorem exec_get (s : σ) : exec (get : Action σ ε σ) s = (.ok s, s) := rfl

@[simp] theorem exec_set (s s' : σ) : exec (set s' : Action σ ε PUnit) s = (.ok ⟨⟩, s') := rfl

@[simp] theorem exec_modify (f : σ → σ) (s : σ) :
    exec (modify f : Action σ ε PUnit) s = (.ok ⟨⟩, f s) := rfl

theorem exec_bind (m : Action σ ε α) (f : α → Action σ ε β) (s : σ) :
    exec (m >>= f) s = match exec m s with
      | (.ok a, s') => exec (f a) s'
      | (.error e, s') => (.error e, s') := by
  rcases h : m s with ⟨r, s'⟩
  cases r <;> simp [exec, ExceptT.run, StateT.run, bind, ExceptT.bind, ExceptT.mk, StateT.bind, h,
    ExceptT.bindCont] <;> rfl

theorem exec_bind_ok {m : Action σ ε α} {f : α → Action σ ε β} {s s' : σ} {a : α}
    (h : exec m s = (.ok a, s')) : exec (m >>= f) s = exec (f a) s' := by
  rw [exec_bind, h]

theorem exec_bind_error {m : Action σ ε α} {f : α → Action σ ε β} {s s' : σ} {e : ε}
    (h : exec m s = (.error e, s')) : exec (m >>= f) s = (.error e, s') := by
  rw [exec_bind, h]

/-- A sequence succeeds only if both parts do. -/
theorem exec_bind_eq_ok {m : Action σ ε α} {f : α → Action σ ε β} {s s' : σ} {b : β} :
    exec (m >>= f) s = (.ok b, s') ↔
      ∃ a t, exec m s = (.ok a, t) ∧ exec (f a) t = (.ok b, s') := by
  rw [exec_bind]
  constructor
  · intro h
    rcases hm : exec m s with ⟨_ | a, t⟩
    · rw [hm] at h
      cases h
    · rw [hm] at h
      exact ⟨a, t, rfl, h⟩
  · rintro ⟨a, t, hm, hf⟩
    rw [hm]
    exact hf

/-- What is done with the result at the end does not show in the state. -/
theorem exec_map_snd (m : Action σ ε α) (f : α → β) (s : σ) :
    (exec (do return f (← m)) s).2 = (exec m s).2 := by
  rw [exec_bind]
  rcases exec m s with ⟨_ | _, _⟩ <;> rfl

theorem exec_tryCatch (m : Action σ ε α) (handler : ε → Action σ ε α) (s : σ) :
    exec (tryCatch m handler) s = match exec m s with
      | (.ok a, s') => (.ok a, s')
      | (.error e, s') => exec (handler e) s' := by
  rcases h : m s with ⟨r, s'⟩
  cases r <;> simp [exec, ExceptT.run, StateT.run, tryCatch, tryCatchThe, MonadExceptOf.tryCatch,
    ExceptT.tryCatch, ExceptT.mk, bind, StateT.bind, h] <;> rfl

/-- Do `m` if `c` holds. -/
def onlyIf (c : Prop) [Decidable c] (m : Action σ ε PUnit) : Action σ ε PUnit :=
  if c then m else pure ⟨⟩

/-! ### Parts of the state -/

variable {τ : Type}

/-- Run an action on a part of the state. -/
def zoom (view : σ → τ) (update : σ → τ → σ) (m : Action τ ε α) : Action σ ε α :=
  fun s => ((exec m (view s)).1, update s (exec m (view s)).2)

@[simp] theorem exec_zoom (view : σ → τ) (update : σ → τ → σ) (m : Action τ ε α) (s : σ) :
    exec (zoom view update m) s = ((exec m (view s)).1, update s (exec m (view s)).2) := rfl

/-- `Result::map_err`. -/
def mapErr {ε' : Type} (f : ε → ε') (m : Action σ ε α) : Action σ ε' α :=
  fun s => ((exec m s).1.mapError f, (exec m s).2)

@[simp] theorem exec_mapErr {ε' : Type} (f : ε → ε') (m : Action σ ε α) (s : σ) :
    exec (mapErr f m) s = ((exec m s).1.mapError f, (exec m s).2) := rfl

/-! ### Executions along a relation -/

/-- Every execution of `m` goes along `R`, whether it ends in a value or in an error. -/
def Within (R : σ → σ → Prop) (m : Action σ ε α) : Prop := ∀ s, R s (exec m s).2

variable {R : σ → σ → Prop}

theorem within_pure (hrefl : ∀ s, R s s) (a : α) : Within R (pure a : Action σ ε α) :=
  fun s => hrefl s

theorem within_throw (hrefl : ∀ s, R s s) (e : ε) : Within R (throw e : Action σ ε α) :=
  fun s => hrefl s

theorem within_bind (htrans : ∀ s t u, R s t → R t u → R s u) {m : Action σ ε α}
    {f : α → Action σ ε β} (hm : Within R m) (hf : ∀ a, Within R (f a)) : Within R (m >>= f) := by
  intro s
  have h := hm s
  rcases hx : exec m s with ⟨r, s'⟩
  rw [hx] at h
  cases r with
  | ok a =>
    rw [exec_bind_ok hx]
    exact htrans _ _ _ h (hf a s')
  | error e =>
    rw [exec_bind_error hx]
    exact h

theorem Within.discard {m : Action σ ε α} (hm : Within R m) :
    Within R (discard m : Action σ ε Unit) := by
  intro s
  have h := hm s
  have hstate : (exec (Functor.discard m : Action σ ε Unit) s).2 = (exec m s).2 := by
    rcases hx : m s with ⟨r, s'⟩
    cases r <;> simp [exec, ExceptT.run, StateT.run, Functor.discard, Functor.mapConst,
      ExceptT.map, ExceptT.mk, bind, StateT.bind, hx] <;> rfl
  rw [hstate]
  exact h

/-! ### Errors -/

def Throws (P : ε → Prop) (m : Action σ ε α) : Prop := ∀ s e s', exec m s = (.error e, s') → P e

variable {P : ε → Prop}

theorem throws_pure (a : α) : Throws P (pure a : Action σ ε α) := by
  intro s e s' h
  cases h

theorem throws_throw {e : ε} (he : P e) : Throws P (throw e : Action σ ε α) := by
  intro s e' s' h
  cases h
  exact he

theorem throws_bind {m : Action σ ε α} {f : α → Action σ ε β} (hm : Throws P m)
    (hf : ∀ a, Throws P (f a)) : Throws P (m >>= f) := by
  intro s e s' h
  rcases hx : exec m s with ⟨e' | a, t⟩
  · rw [exec_bind_error hx] at h
    cases h
    exact hm s _ _ hx
  · rw [exec_bind_ok hx] at h
    exact hf a t e s' h

/-- The errors of an action after reading the state. -/
theorem throws_get_bind {f : σ → Action σ ε α} (hf : ∀ s, Throws P (f s)) :
    Throws P (get >>= f) :=
  fun s e s' h => hf s s e s' h

theorem throws_zoom {view : σ → τ} {update : σ → τ → σ} {m : Action τ ε α} (hm : Throws P m) :
    Throws P (zoom view update m) := by
  intro s e s' h
  have hresult : (exec m (view s)).1 = .error e := congrArg Prod.fst h
  exact hm (view s) e _ (Prod.ext hresult rfl)

theorem throws_ofExcept {x : Except ε α} (hx : ∀ e, x = .error e → P e) :
    Throws P (ofExcept x : Action σ ε α) := by
  intro s e s' h
  cases x with
  | ok a => cases h
  | error e' =>
    cases h
    exact hx _ rfl

theorem throws_mapErr {ε' : Type} {Q : ε' → Prop} {f : ε → ε'} {m : Action σ ε α}
    (hm : Throws (fun e => Q (f e)) m) : Throws Q (mapErr f m) := by
  intro s e s' h
  rcases hx : exec m s with ⟨e' | a, t⟩
  · rw [exec_mapErr, hx] at h
    cases h
    exact hm s _ _ hx
  · rw [exec_mapErr, hx] at h
    cases h

/-! ### Errors that leave things alone -/

/-- A failing execution of `m` from `s` goes along `R`. -/
def Atomic (R : σ → σ → Prop) (m : Action σ ε α) (s : σ) : Prop :=
  ∀ e s', exec m s = (.error e, s') → R s s'

variable {s : σ}

theorem atomic_throw (hs : R s s) (e : ε) : Atomic R (throw e : Action σ ε α) s := by
  intro e' s' h
  cases h
  exact hs

theorem Atomic.bind {m : Action σ ε α} {f : α → Action σ ε β} (hm : Atomic R m s)
    (hf : ∀ a s', exec m s = (.ok a, s') → ∀ e t, exec (f a) s' = (.error e, t) → R s t) :
    Atomic R (m >>= f) s := by
  intro e t h
  rcases hexec : exec m s with ⟨e' | a, s'⟩
  · rw [exec_bind_error hexec] at h
    cases h
    exact hm _ _ hexec
  · rw [exec_bind_ok hexec] at h
    exact hf a s' hexec e t h

theorem atomic_map_iff {m : Action σ ε α} (f : α → β) :
    Atomic R (do return f (← m)) s ↔ Atomic R m s := by
  constructor
  · intro hm e s' h
    exact hm e s' (exec_bind_error h)
  · exact fun hm => hm.bind fun _ _ _ _ _ h => (by cases h)

/-! ### What an execution ignores -/

/-- Changing the state by `g` beforehand or afterwards is the same, and the result does not tell. -/
def Ignores (g : σ → σ) (f : σ → β × σ) (s : σ) : Prop := f (g s) = ((f s).1, g (f s).2)

variable {g : σ → σ}

theorem Ignores.bind {m : Action σ ε α} {f : α → Action σ ε β} (hm : Ignores g (exec m) s)
    (hf : ∀ a s', exec m s = (.ok a, s') → Ignores g (exec (f a)) s') :
    Ignores g (exec (m >>= f)) s := by
  rcases hexec : exec m s with ⟨e | a, s'⟩
  · have hother : exec m (g s) = (.error e, g s') := by
      rw [hm, hexec]
    rw [Ignores, exec_bind_error hother, exec_bind_error hexec]
  · have hother : exec m (g s) = (.ok a, g s') := by
      rw [hm, hexec]
    rw [Ignores, exec_bind_ok hother, exec_bind_ok hexec]
    exact hf a s' hexec

/-! ### What success ensures -/

def Ensures (m : Action σ ε α) (s : σ) (Q : α → σ → Prop) : Prop :=
  ∀ a s', exec m s = (.ok a, s') → Q a s'

variable {Q : α → σ → Prop}

theorem ensures_pure {a : α} (h : Q a s) : Ensures (pure a : Action σ ε α) s Q := by
  intro a' s' hexec
  cases hexec
  exact h

theorem ensures_throw (e : ε) : Ensures (throw e : Action σ ε α) s Q := by
  intro a s' hexec
  cases hexec

theorem ensures_modify {f : σ → σ} {Q : PUnit → σ → Prop} (h : Q ⟨⟩ (f s)) :
    Ensures (modify f : Action σ ε PUnit) s Q := by
  intro a s' hexec
  cases hexec
  exact h

theorem Ensures.bind {m : Action σ ε α} {f : α → Action σ ε β} {R : β → σ → Prop}
    (hm : Ensures m s Q) (hf : ∀ a s', Q a s' → Ensures (f a) s' R) : Ensures (m >>= f) s R := by
  intro b t hexec
  obtain ⟨a, s', hfirst, hrest⟩ := exec_bind_eq_ok.1 hexec
  exact hf a s' (hm a s' hfirst) b t hrest

theorem Ensures.mono {m : Action σ ε α} {R : α → σ → Prop} (hm : Ensures m s Q)
    (h : ∀ a s', Q a s' → R a s') : Ensures m s R :=
  fun a s' hexec => h a s' (hm a s' hexec)

theorem Ensures.and {m : Action σ ε α} {R : α → σ → Prop} (hm : Ensures m s Q)
    (hm' : Ensures m s R) : Ensures m s fun a s' => Q a s' ∧ R a s' :=
  fun a s' hexec => ⟨hm a s' hexec, hm' a s' hexec⟩

theorem ensures_get_bind {f : σ → Action σ ε β} {R : β → σ → Prop} (h : Ensures (f s) s R) :
    Ensures (get >>= f) s R :=
  fun b t hexec => h b t hexec

theorem ensures_modify_bind {g : σ → σ} {f : PUnit → Action σ ε β} {R : β → σ → Prop}
    (h : Ensures (f ⟨⟩) (g s) R) : Ensures (modify g >>= f) s R :=
  fun b t hexec => h b t hexec

theorem ensures_set_bind {t : σ} {f : PUnit → Action σ ε β} {R : β → σ → Prop}
    (h : Ensures (f ⟨⟩) t R) : Ensures (set t >>= f) s R :=
  fun b u hexec => h b u hexec

/-- A loop computes what its body computes in each round. -/
theorem ensures_forM {ι τ : Type} (I : τ → σ → Prop) (next : τ → ι → τ)
    {body : ι → Action σ ε PUnit} {l : List ι}
    (hbody : ∀ t s i, i ∈ l → I t s → Ensures (body i) s fun _ => I (next t i)) {t : τ}
    (hs : I t s) : Ensures (l.forM body) s fun _ => I (l.foldl next t) := by
  induction l generalizing t s with
  | nil => exact ensures_pure hs
  | cons i l ih =>
    refine (hbody t s i List.mem_cons_self hs).bind fun _ s' hs' => ?_
    exact ih (fun t s j hj => hbody t s j (List.mem_cons_of_mem _ hj)) hs'

/-- Every execution of `m` that succeeds goes along `R`. -/
def Along (R : σ → σ → Prop) (m : Action σ ε α) : Prop := ∀ s, Ensures m s fun _ s' => R s s'

theorem along_pure (hrefl : ∀ s, R s s) (a : α) : Along R (pure a : Action σ ε α) :=
  fun s => ensures_pure (hrefl s)

theorem along_throw (e : ε) : Along R (throw e : Action σ ε α) := fun _ => ensures_throw e

theorem Along.bind (htrans : ∀ s t u, R s t → R t u → R s u) {m : Action σ ε α}
    {f : α → Action σ ε β} (hm : Along R m) (hf : ∀ a, Along R (f a)) : Along R (m >>= f) := by
  intro s
  refine (hm s).bind fun a t ht => ?_
  exact (hf a t).mono fun _ u hu => htrans s t u ht hu

theorem Along.ensures_bind {m : Action σ ε α} {f : α → Action σ ε β} {S : β → σ → Prop}
    (hm : Along R m) (hf : ∀ a s', R s s' → Ensures (f a) s' S) : Ensures (m >>= f) s S :=
  (hm s).bind hf

theorem along_get_bind {f : σ → Action σ ε β} (hf : ∀ s, Along R (f s)) : Along R (get >>= f) :=
  fun s => ensures_get_bind (hf s s)

theorem along_modify {f : σ → σ} (hf : ∀ s, R s (f s)) :
    Along R (modify f : Action σ ε PUnit) :=
  fun s => ensures_modify (hf s)

theorem along_onlyIf (hrefl : ∀ s, R s s) {c : Prop} [Decidable c] {m : Action σ ε PUnit}
    (hm : Along R m) : Along R (onlyIf c m) := by
  unfold onlyIf
  split
  · exact hm
  · exact along_pure hrefl _

theorem along_forM (hrefl : ∀ s, R s s) (htrans : ∀ s t u, R s t → R t u → R s u) {ι : Type}
    {body : ι → Action σ ε PUnit} {l : List ι} (hbody : ∀ i, Along R (body i)) :
    Along R (l.forM body) := by
  induction l with
  | nil => exact along_pure hrefl _
  | cons i l ih => exact (hbody i).bind htrans fun _ => ih

/-! ### Executions along a relation, barring some errors -/

/-- Every execution of `m` goes along `R`, unless it ends in an error `E`. -/
def Barring (E : ε → Prop) (R : σ → σ → Prop) (m : Action σ ε α) : Prop :=
  ∀ s, (∀ e, (exec m s).1 = .error e → ¬E e) → R s (exec m s).2

variable {E : ε → Prop}

theorem Within.barring {m : Action σ ε α} (hm : Within R m) : Barring E R m := fun s _ => hm s

theorem Barring.within {m : Action σ ε α} (hm : Barring (fun _ => False) R m) : Within R m :=
  fun s => hm s fun _ _ => id

theorem Barring.mono {S : σ → σ → Prop} {m : Action σ ε α} (hm : Barring E R m)
    (h : ∀ s t, R s t → S s t) : Barring E S m :=
  fun s hs => h _ _ (hm s hs)

theorem Barring.bind (htrans : ∀ s t u, R s t → R t u → R s u) {m : Action σ ε α}
    {f : α → Action σ ε β} (hm : Barring E R m) (hf : ∀ a, Barring E R (f a)) :
    Barring E R (m >>= f) := by
  intro s hs
  rcases hx : exec m s with ⟨e | a, t⟩
  · rw [exec_bind_error hx] at hs ⊢
    have h := hm s
    rw [hx] at h
    exact h fun e' heq => hs e' (by cases heq; rfl)
  · rw [exec_bind_ok hx] at hs ⊢
    have h := hm s
    rw [hx] at h
    have h := h fun _ heq => (by cases heq)
    exact htrans _ _ _ h (hf a t hs)

theorem exec_discard (m : Action σ ε α) (s : σ) :
    exec (discard m : Action σ ε Unit) s = ((exec m s).1.map fun _ => (), (exec m s).2) := by
  show exec (m >>= fun _ => pure ()) s = _
  rw [exec_bind]
  rcases exec m s with ⟨_ | _, _⟩ <;> rfl

theorem Barring.discard {m : Action σ ε α} (hm : Barring E R m) :
    Barring E R (discard m : Action σ ε Unit) := by
  intro s hs
  rw [exec_discard] at hs ⊢
  refine hm s fun e he => hs e ?_
  rw [he]
  rfl

/-- Doing `g` before an error is thrown on. -/
theorem Barring.tryCatch (htrans : ∀ s t u, R s t → R t u → R s u) {m : Action σ ε α}
    (hm : Barring E R m) {g : ε → σ → σ} (hg : ∀ e s, R s (g e s)) :
    Barring E R (tryCatch m fun e => do
      modify (g e)
      throw e) := by
  intro s hs
  rw [exec_tryCatch] at hs ⊢
  rcases hx : exec m s with ⟨e | a, t⟩
  all_goals
    rw [hx] at hs
    have h := hm s
    rw [hx] at h
  · exact htrans _ _ _ (h fun e' heq => hs e' (by cases heq; rfl)) (hg e t)
  · exact h fun e' heq => (by cases heq)

theorem barring_zoom {S : τ → τ → Prop} {view : σ → τ} {update : σ → τ → σ} {m : Action τ ε α}
    (hm : Barring E S m) (h : ∀ s t, S (view s) t → R s (update s t)) :
    Barring E R (zoom view update m) :=
  fun s hs => h s _ (hm (view s) hs)

end Action

end LinquUb
