import Mathlib.Data.List.Forall2

/-!
# Programs over a state that may fail

A program reads and writes a state and may stop with an error.  An error keeps
what was written before it, so a caller sees the state the failed call left
behind.

**Rules.**  `Meets P m Q E` says that `m`, run from a state with `P`, ends with
`Q` or fails with `E`.
-/

namespace Runc.Lib

inductive Fault (ε : Type)
  | error (err : ε)
  | panicked
deriving DecidableEq

theorem bind_eq_ok {ε α β : Type} {x : Except ε α} {f : α → Except ε β} {b : β}
    (h : x >>= f = .ok b) : ∃ a, x = .ok a ∧ f a = .ok b := by
  cases x with
  | error err => cases h
  | ok a => exact ⟨a, rfl, h⟩

theorem mapM_eq_ok {ε α β : Type} {f : α → Except ε β} {xs : List α} {ys : List β}
    (h : xs.mapM f = .ok ys) : List.Forall₂ (fun x y => f x = .ok y) xs ys := by
  induction xs generalizing ys with
  | nil =>
    cases h
    exact .nil
  | cons x xs ih =>
    rw [List.mapM_cons] at h
    obtain ⟨y, hy, h⟩ := bind_eq_ok h
    obtain ⟨rest, hrest, h⟩ := bind_eq_ok h
    cases h
    exact .cons hy (ih hrest)

theorem forM_eq_ok_iff {ε α : Type} {f : α → Except ε Unit} {xs : List α} :
    xs.forM f = .ok () ↔ ∀ x ∈ xs, f x = .ok () := by
  induction xs with
  | nil => exact ⟨fun _ => nofun, fun _ => rfl⟩
  | cons x xs ih =>
    have hcons : (x :: xs).forM f = (f x >>= fun _ => xs.forM f) := rfl
    rw [hcons, List.forall_mem_cons, ← ih]
    constructor
    · intro h
      obtain ⟨_, hx, h⟩ := bind_eq_ok h
      exact ⟨hx, h⟩
    · rintro ⟨hx, h⟩
      rw [hx]
      exact h

theorem foldlM_keeps {ε σ α : Type} {f : σ → α → Except ε σ} {xs : List α} {s last : σ}
    (I : List α → σ → Prop) (h : xs.foldlM f s = .ok last) (hstart : I [] s)
    (hstep : ∀ done x rest s s', xs = done ++ x :: rest → I done s → f s x = .ok s' →
      rest.foldlM f s' = .ok last → I (done ++ [x]) s') : I xs last := by
  induction xs generalizing s I with
  | nil =>
    cases h
    exact hstart
  | cons x xs ih =>
    obtain ⟨next, hx, h⟩ := bind_eq_ok h
    refine ih (fun done => I (x :: done)) h ?_ ?_
    · exact hstep [] x xs s next rfl hstart hx h
    · intro done y rest s s' hsplit
      exact hstep (x :: done) y rest s s' (congrArg _ hsplit)

theorem exists_of_mem_right {α β : Type} {R : α → β → Prop} {xs : List α} {ys : List β} {y : β}
    (h : List.Forall₂ R xs ys) (hy : y ∈ ys) : ∃ x ∈ xs, R x y := by
  induction h with
  | nil => cases hy
  | cons hr _ ih =>
    rcases List.mem_cons.mp hy with rfl | hy
    · exact ⟨_, List.mem_cons_self, hr⟩
    · obtain ⟨x, hx, hrx⟩ := ih hy
      exact ⟨x, List.mem_cons_of_mem _ hx, hrx⟩

abbrev Program (σ ε α : Type) := ExceptT ε (StateM σ) α

namespace Program

variable {σ ε α β : Type}

def exec (m : Program σ ε α) (s : σ) : Except ε α × σ :=
  StateT.run (ExceptT.run m) s

def check : Option ε → Program σ ε Unit
  | none => pure ()
  | some e => throw e

def wrap (f : ε → ε) (m : Program σ ε α) : Program σ ε α :=
  tryCatch m fun e => throw (f e)

def onError (m : Program σ ε α) (cleanup : σ → σ) : Program σ ε α :=
  tryCatch m fun e => do
    modify cleanup
    throw e

def ignore (m : Program σ ε Unit) : Program σ ε Unit :=
  tryCatch m fun _ => pure ()

def onlyIf (b : Bool) (m : Program σ ε Unit) : Program σ ε Unit :=
  if b then m else pure ()

@[simp]
theorem exec_pure (a : α) (s : σ) : exec (pure a : Program σ ε α) s = (.ok a, s) :=
  rfl

@[simp]
theorem exec_throw (e : ε) (s : σ) : exec (throw e : Program σ ε α) s = (.error e, s) :=
  rfl

@[simp]
theorem exec_get (s : σ) : exec (get : Program σ ε σ) s = (.ok s, s) :=
  rfl

@[simp]
theorem exec_modify (g : σ → σ) (s : σ) :
    exec (modify g : Program σ ε PUnit) s = (.ok ⟨⟩, g s) :=
  rfl

@[simp]
theorem exec_check_none (s : σ) : exec (check none : Program σ ε Unit) s = (.ok (), s) :=
  rfl

@[simp]
theorem exec_check_some (e : ε) (s : σ) :
    exec (check (some e) : Program σ ε Unit) s = (.error e, s) :=
  rfl

theorem exec_bind (m : Program σ ε α) (f : α → Program σ ε β) (s : σ) :
    exec (m >>= f) s =
      match exec m s with
      | (.ok a, s') => exec (f a) s'
      | (.error e, s') => (.error e, s') := by
  unfold exec
  rw [ExceptT.run_bind, StateT.run_bind]
  rcases StateT.run (ExceptT.run m) s with ⟨r | r, s'⟩
  · rfl
  · rfl

theorem exec_bind_of_ok {m : Program σ ε α} {f : α → Program σ ε β} {s : σ} {b : β}
    (h : (exec (m >>= f) s).1 = .ok b) :
    ∃ a s', exec m s = (.ok a, s') ∧ exec (m >>= f) s = exec (f a) s' := by
  rw [exec_bind] at h ⊢
  rcases hm : exec m s with ⟨e | a, s'⟩
  · rw [hm] at h
    cases h
  · exact ⟨a, s', rfl, rfl⟩

theorem exec_tryCatch (m : Program σ ε α) (h : ε → Program σ ε α) (s : σ) :
    exec (tryCatch m h) s =
      match exec m s with
      | (.ok a, s') => (.ok a, s')
      | (.error e, s') => exec (h e) s' := by
  unfold exec
  rw [ExceptT.run_tryCatch, StateT.run_bind]
  rcases StateT.run (ExceptT.run m) s with ⟨r | r, s'⟩
  · rfl
  · rfl

theorem exec_wrap_error {f : ε → ε} {m : Program σ ε α} {s s' : σ} {e : ε}
    (h : exec m s = (.error e, s')) : exec (wrap f m) s = (.error (f e), s') := by
  unfold wrap
  rw [exec_tryCatch, h]
  rfl

@[simp]
theorem onlyIf_true (m : Program σ ε Unit) : onlyIf true m = m :=
  rfl

@[simp]
theorem onlyIf_false (m : Program σ ε Unit) : onlyIf false m = pure () :=
  rfl

section Rules

variable {P P' : σ → Prop} {Q Q' : α → σ → Prop} {R : β → σ → Prop}
variable {E E' : σ → Prop} {m : Program σ ε α}

def Ends (Q : α → σ → Prop) (E : σ → Prop) : Except ε α × σ → Prop
  | (.ok a, s) => Q a s
  | (.error _, s) => E s

/-- From a state with `P`, `m` ends with `Q` or fails with `E`. -/
def Meets (P : σ → Prop) (m : Program σ ε α) (Q : α → σ → Prop) (E : σ → Prop) : Prop :=
  ∀ s, P s → Ends Q E (exec m s)

/-- However `m` ends, `P` still holds. -/
def Keeps (P : σ → Prop) (m : Program σ ε α) : Prop :=
  Meets P m (fun _ => P) P

theorem Meets.exec (h : Meets P m (fun _ => P') P') {s : σ} (hs : P s) : P' (m.exec s).2 := by
  have hends := h s hs
  revert hends
  rcases m.exec s with ⟨r | r, s'⟩
  · exact fun hends => hends
  · exact fun hends => hends

theorem Meets.weaken (h : Meets P m Q E) (hpre : ∀ s, P' s → P s) (hpost : ∀ a s, Q a s → Q' a s)
    (herr : ∀ s, E s → E' s) : Meets P' m Q' E' := by
  intro s hs
  have hends := h s (hpre s hs)
  revert hends
  rcases m.exec s with ⟨r | r, s'⟩
  · exact herr s'
  · exact hpost r s'

theorem Meets.pure {a : α} (h : ∀ s, P s → Q a s) : Meets P (pure a : Program σ ε α) Q E :=
  h

theorem Meets.throw {e : ε} (h : ∀ s, P s → E s) : Meets P (throw e : Program σ ε α) Q E :=
  h

theorem Meets.modify {g : σ → σ} {Q : PUnit → σ → Prop} (h : ∀ s, P s → Q ⟨⟩ (g s)) :
    Meets P (modify g : Program σ ε PUnit) Q E :=
  h

theorem Keeps.check (fault : Option ε) : Keeps P (check fault : Program σ ε Unit) := by
  cases fault with
  | none => exact fun _ hs => hs
  | some e => exact fun _ hs => hs

theorem Meets.bind {f : α → Program σ ε β} (hm : Meets P m Q E) (hf : ∀ a, Meets (Q a) (f a) R E) :
    Meets P (m >>= f) R E := by
  intro s hs
  have hends := hm s hs
  rw [exec_bind]
  revert hends
  rcases m.exec s with ⟨r | r, s'⟩
  · exact fun h => h
  · exact hf r s'

theorem Meets.get {f : σ → Program σ ε β} (h : ∀ c, P c → Ends R E ((f c).exec c)) :
    Meets P (get >>= f) R E := by
  intro s hs
  rw [exec_bind, exec_get]
  exact h s hs

theorem Keeps.get {f : σ → Program σ ε β} (h : ∀ c, Keeps P (f c)) : Keeps P (get >>= f) :=
  Meets.get fun c hc => h c c hc

theorem Meets.tryCatch {handler : ε → Program σ ε α} (hm : Meets P m Q E)
    (hh : ∀ e, Meets E (handler e) Q E') : Meets P (tryCatch m handler) Q E' := by
  intro s hs
  have hends := hm s hs
  rw [exec_tryCatch]
  revert hends
  rcases m.exec s with ⟨r | r, s'⟩
  · exact hh r s'
  · exact fun h => h

theorem Meets.wrap {f : ε → ε} (h : Meets P m Q E) : Meets P (wrap f m) Q E :=
  Meets.tryCatch h fun _ => Meets.throw fun _ hs => hs

theorem Meets.onError {cleanup : σ → σ} (h : Meets P m Q E) (hclean : ∀ s, E s → E' (cleanup s)) :
    Meets P (onError m cleanup) Q E' :=
  Meets.tryCatch h fun _ s hs => hclean s hs

theorem Meets.ignore {m : Program σ ε Unit} (h : Meets P m (fun _ => P') P') :
    Meets P (ignore m) (fun _ => P') E :=
  Meets.tryCatch h fun _ => Meets.pure fun _ hs => hs

theorem Keeps.onlyIf {m : Program σ ε Unit} {b : Bool} (h : Keeps P m) : Keeps P (onlyIf b m) := by
  cases b with
  | false => exact fun _ hs => hs
  | true => exact h

theorem Keeps.forM {f : β → Program σ ε PUnit} {items : List β} (h : ∀ x ∈ items, Keeps P (f x)) :
    Keeps P (items.forM f) := by
  induction items with
  | nil => exact fun _ hs => hs
  | cons x rest ih =>
    have hx : Keeps P (f x) := h x List.mem_cons_self
    have hrest : Keeps P (rest.forM f) := ih fun y hy => h y (List.mem_cons_of_mem x hy)
    exact Meets.bind hx fun _ => hrest

end Rules

end Program
end Runc.Lib
