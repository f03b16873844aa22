import Mathlib.Data.List.Nodup
import RewardsDriver.Base.Runs

/-!
Calls of programs that share a state, and the order in which they take effect.

A program is the tree of its accesses to the state. Calls are made at any time, get on by one
access at a time in any interleaving, and return. They are linearizable if they can be put into one
order that contradicts nothing that a caller can see: each call has the result that it has in that
order, and none stands before a call that had returned before it was made.

* `Prog`, `Prog.run`: programs, and what one does on its own; `run_bind`: one after another.
* `system`, `Moves`, `step_moves`: the labelled transition system of the calls.
* `Linearizes`: an order of the calls that explains a run.
* `Prog.Atomic`: whatever happens between its accesses, one of them has the whole effect;
  `Returns.bind_atomic`, `Atomic.bind`: **one after another**, when one of the two has the effect.
* `linearizable`: **calls of atomic programs are linearizable**.
* `Linearizes.newest`: **nothing acknowledged is lost** to a call that had returned before it.
-/

namespace RewardsDriver.Interleaved

universe u v w x

/-- A program over a shared state: what each access does to the state, and what is left of the
program after it. -/
inductive Prog (σ : Type u) (β : Type v) where
  | done (b : β)
  | access (effect : σ → σ) (next : σ → Prog σ β)

namespace Prog

variable {σ : Type u} {β : Type v} {γ : Type v}

/-- The program on its own. -/
def run : Prog σ β → σ → β × σ
  | .done b, s => (b, s)
  | .access effect next, s => (next s).run (effect s)

/-- One program, and another one that depends on its result. -/
def bind : Prog σ β → (β → Prog σ γ) → Prog σ γ
  | .done b, f => f b
  | .access effect next, f => .access effect fun s => (next s).bind f

/-- All in one access. -/
def atomically (x : σ → β × σ) : Prog σ β := .access (fun s => (x s).2) fun s => .done (x s).1

lemma run_bind (p : Prog σ β) (f : β → Prog σ γ) (s : σ) :
    (p.bind f).run s = (f (p.run s).1).run (p.run s).2 := by
  induction p generalizing s with
  | done b => rfl
  | access effect next ih => exact ih s (effect s)

@[simp] lemma run_atomically (x : σ → β × σ) (s : σ) : (atomically x).run s = x s := rfl

end Prog

/-! ### The calls -/

variable {σ : Type u} {β γ : Type v} {ω : Type w} {τ : Type x}

/-- A call: what is left of its program while it is at work. -/
inductive Call (σ : Type u) (β : Type v) where
  | notMade
  | runs (p : Prog σ β)
  | returned

/-- The shared state and the calls. -/
structure Pool (σ : Type u) (β : Type v) where
  shared : σ
  calls : ℕ → Call σ β

/-- A step: a call is made, gets on by one access, or returns. -/
inductive Label (ω : Type w) (β : Type v) where
  | invoke (i : ℕ) (o : ω)
  | access (i : ℕ)
  | returns (i : ℕ) (b : β)

/-- One step, given the programs of the operations. -/
def step [DecidableEq β] (prog : ω → Prog σ β) (p : Pool σ β) : Label ω β → Option (Pool σ β)
  | .invoke i o =>
      match p.calls i with
      | .notMade => some { p with calls := Function.update p.calls i (.runs (prog o)) }
      | _ => none
  | .access i =>
      match p.calls i with
      | .runs (.access effect next) =>
          some ⟨effect p.shared, Function.update p.calls i (.runs (next p.shared))⟩
      | _ => none
  | .returns i b =>
      match p.calls i with
      | .runs (.done b') =>
          if b' = b then some { p with calls := Function.update p.calls i .returned } else none
      | _ => none

/-- The calls on the state `s`. -/
def system [DecidableEq β] (prog : ω → Prog σ β) (s : σ) : System (Pool σ β) (Label ω β) :=
  ⟨⟨s, fun _ => .notMade⟩, step prog⟩

/-- The enabled steps from `p`. -/
inductive Moves (prog : ω → Prog σ β) (p : Pool σ β) : Label ω β → Pool σ β → Prop
  | invoke {i o} (hc : p.calls i = .notMade) :
      Moves prog p (.invoke i o) { p with calls := Function.update p.calls i (.runs (prog o)) }
  | access {i effect next} (hc : p.calls i = .runs (.access effect next)) :
      Moves prog p (.access i)
        ⟨effect p.shared, Function.update p.calls i (.runs (next p.shared))⟩
  | returns {i b} (hc : p.calls i = .runs (.done b)) :
      Moves prog p (.returns i b) { p with calls := Function.update p.calls i .returned }

lemma step_moves [DecidableEq β] {prog : ω → Prog σ β} {p p' : Pool σ β} {l : Label ω β}
    (h : step prog p l = some p') : Moves prog p l p' := by
  cases l with
  | invoke i o =>
      simp only [step] at h
      split at h
      · next hc => cases h; exact .invoke hc
      · cases h
  | access i =>
      simp only [step] at h
      split at h
      · next effect next hc => cases h; exact .access hc
      · cases h
  | returns i b =>
      simp only [step] at h
      split at h
      · next b' hc =>
        split at h
        · next hb =>
          subst hb
          cases h
          exact .returns hc
        · cases h
      · cases h

/-! ### Linearizability -/

/-- A call in an order of calls: of which operation, and with which result. -/
structure Entry (ω : Type w) (β : Type v) where
  call : ℕ
  op : ω
  result : β

/-- The operations one after the other, each doing what `spec` allows it. -/
def Replays (spec : ω → τ → β → τ → Prop) : List (Entry ω β) → τ → τ → Prop
  | [], t, t' => t = t'
  | e :: es, t, t'' => ∃ t', spec e.op t e.result t' ∧ Replays spec es t' t''

/-- The call `i` had returned when the call `j` was made. -/
def Before (as : List (Label ω β)) (i j : ℕ) : Prop :=
  ∃ b o, [Label.returns i b, .invoke j o].Sublist as

/-- Every call is of one operation, and returns only after it has been made. -/
structure Proper (as : List (Label ω β)) : Prop where
  once : ∀ i o o', Label.invoke i o ∈ as → Label.invoke i o' ∈ as → o = o'
  first : ∀ i, ¬ Before as i i

/-- An order of calls that explains the run with the labels `as` from `t` to `t'`: the calls that
have returned, and some of those still at work, one after the other. -/
structure Linearizes (spec : ω → τ → β → τ → Prop) (t : τ) (as : List (Label ω β)) (t' : τ)
    (order : List (Entry ω β)) : Prop where
  replays : Replays spec order t t'
  once : (order.map Entry.call).Nodup
  made : ∀ e ∈ order, Label.invoke e.call e.op ∈ as
  answered : ∀ i b, Label.returns i b ∈ as → ∃ o, ⟨i, o, b⟩ ∈ order
  realtime : order.Pairwise fun e e' => ¬ Before as e'.call e.call

variable {spec : ω → τ → β → τ → Prop}

lemma replays_concat {es : List (Entry ω β)} {e : Entry ω β} {t t' t'' : τ}
    (h : Replays spec es t t') (he : spec e.op t' e.result t'') :
    Replays spec (es ++ [e]) t t'' := by
  induction es generalizing t with
  | nil =>
      obtain rfl : t = t' := h
      exact ⟨t'', he, rfl⟩
  | cons e₀ es ih =>
      obtain ⟨t₁, he₀, hrest⟩ := h
      exact ⟨t₁, he₀, ih hrest⟩

/-- A further label sets only the call that it makes after others. -/
lemma before_concat {as : List (Label ω β)} {l : Label ω β} {i j : ℕ}
    (h : Before (as ++ [l]) i j) : Before as i j ∨ ∃ o, l = .invoke j o := by
  obtain ⟨b, o, hsub⟩ := h
  obtain ⟨front, back, heq, hfront, hback⟩ := List.sublist_append_iff.mp hsub
  cases back with
  | nil =>
      rw [List.append_nil] at heq
      exact .inl ⟨b, o, heq ▸ hfront⟩
  | cons x xs =>
      obtain rfl : xs = [] := by
        have hlen := hback.length_le
        simp only [List.length_cons, List.length_nil] at hlen
        exact List.length_eq_zero_iff.mp (by omega)
      have hx : x = l := by simpa using hback
      have hlast := congrArg List.getLast? heq
      simp only [List.getLast?_cons_cons, List.getLast?_singleton, List.getLast?_append,
        Option.some_or, Option.some.injEq] at hlast
      exact .inr ⟨o, by rw [← hx, ← hlast]⟩

/-- A call that has not returned is before no call. -/
lemma not_before {as : List (Label ω β)} {i : ℕ} (h : ∀ b, Label.returns i b ∉ as) (j : ℕ) :
    ¬ Before as i j := fun ⟨b, _, hsub⟩ => h b (hsub.subset List.mem_cons_self)

/-- A further label that makes no call. -/
lemma Proper.label {as : List (Label ω β)} (h : Proper as) {l : Label ω β}
    (hl : ∀ i o, l ≠ .invoke i o) : Proper (as ++ [l]) where
  once i o o' hmade hmade' := by
    simp only [List.mem_append, List.mem_singleton] at hmade hmade'
    exact h.once i o o' (hmade.resolve_right fun heq => hl i o heq.symm)
      (hmade'.resolve_right fun heq => hl i o' heq.symm)
  first i hbefore := by
    rcases before_concat hbefore with hold | ⟨o, heq⟩
    · exact h.first i hold
    · exact hl i o heq

/-- A new call is made. -/
lemma Proper.invoke {as : List (Label ω β)} (h : Proper as) {i : ℕ} (o : ω)
    (hnew : ∀ o, Label.invoke i o ∉ as) (hopen : ∀ b, Label.returns i b ∉ as) :
    Proper (as ++ [.invoke i o]) where
  once j o₁ o₂ h₁ h₂ := by
    simp only [List.mem_append, List.mem_singleton, Label.invoke.injEq] at h₁ h₂
    rcases h₁ with h₁ | ⟨rfl, rfl⟩ <;> rcases h₂ with h₂ | ⟨hj, rfl⟩
    · exact h.once j o₁ o₂ h₁ h₂
    · exact absurd (hj ▸ h₁) (hnew o₁)
    · exact absurd h₂ (hnew o₂)
    · rfl
  first j hbefore := by
    rcases before_concat hbefore with hold | ⟨o', heq⟩
    · exact h.first j hold
    · cases heq
      obtain ⟨b, o'', hsub⟩ := hbefore
      have hmem := hsub.subset (List.mem_cons_self (a := Label.returns i b))
      exact hopen b (by simpa using hmem)

/-! ### Atomic programs -/

section Atomic

variable (Inv : σ → Prop) (view : σ → τ)

/-- Whatever happens between its accesses, the program leaves the view and returns `b`. -/
def Prog.Returns (b : β) : Prog σ β → Prop
  | .done b' => b' = b
  | .access effect next =>
      ∀ s, Inv s → Inv (effect s) ∧ view (effect s) = view s ∧ (next s).Returns b

/-- Whatever happens between its accesses, one of them does what `eff` allows, with the result that
the program returns, and the others leave the view. -/
def Prog.Atomic (eff : τ → β → τ → Prop) : Prog σ β → Prop
  | .done _ => False
  | .access effect next =>
      ∀ s, Inv s → Inv (effect s) ∧
        ((view (effect s) = view s ∧ (next s).Atomic eff) ∨
          ∃ b, eff (view s) b (view (effect s)) ∧ (next s).Returns Inv view b)

variable {Inv view}

/-- After a program, one that leaves the view too. -/
lemma Prog.Returns.bind {p : Prog σ β} {f : β → Prog σ γ} {b : β} {b' : γ}
    (h : p.Returns Inv view b) (hf : (f b).Returns Inv view b') :
    (p.bind f).Returns Inv view b' := by
  induction p with
  | done b₀ =>
      obtain rfl : b₀ = b := h
      exact hf
  | access effect next ih =>
      intro s hs
      obtain ⟨hinv, hview, hrest⟩ := h s hs
      exact ⟨hinv, hview, ih s hrest⟩

/-- The effect is that of the second program. -/
lemma Prog.Returns.bind_atomic {p : Prog σ β} {f : β → Prog σ γ} {b : β} {eff : τ → γ → τ → Prop}
    (h : p.Returns Inv view b) (hf : (f b).Atomic Inv view eff) :
    (p.bind f).Atomic Inv view eff := by
  induction p with
  | done b₀ =>
      obtain rfl : b₀ = b := h
      exact hf
  | access effect next ih =>
      intro s hs
      obtain ⟨hinv, hview, hrest⟩ := h s hs
      exact ⟨hinv, .inl ⟨hview, ih s hrest⟩⟩

/-- The effect is that of the first program, and the second one only makes the result of it. -/
lemma Prog.Atomic.bind {p : Prog σ β} {f : β → Prog σ γ} {eff : τ → β → τ → Prop}
    {eff' : τ → γ → τ → Prop} (h : p.Atomic Inv view eff)
    (hf : ∀ t b t', eff t b t' → ∃ b', eff' t b' t' ∧ (f b).Returns Inv view b') :
    (p.bind f).Atomic Inv view eff' := by
  induction p with
  | done b => exact h.elim
  | access effect next ih =>
      intro s hs
      obtain ⟨hinv, ⟨hview, hrest⟩ | ⟨b, heff, hreturns⟩⟩ := h s hs
      · exact ⟨hinv, .inl ⟨hview, ih s hrest⟩⟩
      · obtain ⟨b', heff', hb'⟩ := hf _ b _ heff
        exact ⟨hinv, .inr ⟨b', heff', hreturns.bind hb'⟩⟩

/-- A program of one access. -/
lemma Prog.atomic_atomically {x : σ → β × σ} {eff : τ → β → τ → Prop}
    (h : ∀ s, Inv s → Inv (x s).2 ∧ eff (view s) (x s).1 (view (x s).2)) :
    (atomically x).Atomic Inv view eff := fun s hs =>
  ⟨(h s hs).1, .inr ⟨(x s).1, (h s hs).2, rfl⟩⟩

lemma Prog.returns_atomically {x : σ → β × σ} {b : β}
    (h : ∀ s, Inv s → Inv (x s).2 ∧ view (x s).2 = view s ∧ (x s).1 = b) :
    (atomically x).Returns Inv view b := h

variable (Inv view)

/-- Where a call stands: its effect is still to come, or it is in the order. -/
def Stands (spec : ω → τ → β → τ → Prop) (order : List (Entry ω β)) (i : ℕ) (o : ω)
    (q : Prog σ β) : Prop :=
  (q.Atomic Inv view (spec o) ∧ ∀ e ∈ order, e.call ≠ i) ∨
    ∃ b, q.Returns Inv view b ∧ ⟨i, o, b⟩ ∈ order

/-- The invariant of a run: its labels so far and an order that explains them. -/
structure Traced (spec : ω → τ → β → τ → Prop) (t : τ) (as : List (Label ω β)) (p : Pool σ β)
    (order : List (Entry ω β)) : Prop where
  inv : Inv p.shared
  proper : Proper as
  linearizes : Linearizes spec t as (view p.shared) order
  notMade : ∀ i, p.calls i = .notMade → ∀ o, Label.invoke i o ∉ as
  runs : ∀ i q, p.calls i = .runs q → (∀ b, Label.returns i b ∉ as) ∧
    ∃ o, Label.invoke i o ∈ as ∧ Stands Inv view spec order i o q

end Atomic

variable {Inv : σ → Prop} {view : σ → τ}

/-- The order still explains the run when a call that is not in it is made, or one that is in it
returns, or one has gone on. -/
lemma Linearizes.label {t t' : τ} {as : List (Label ω β)} {order : List (Entry ω β)}
    (h : Linearizes spec t as t' order) {l : Label ω β}
    (hinvoke : ∀ j o, l = .invoke j o → ∀ e ∈ order, e.call ≠ j)
    (hreturns : ∀ i b, l = .returns i b → ∃ o, ⟨i, o, b⟩ ∈ order) :
    Linearizes spec t (as ++ [l]) t' order where
  replays := h.replays
  once := h.once
  made e he := List.mem_append_left _ (h.made e he)
  answered i b hmem := by
    rcases List.mem_append.mp hmem with hold | hnew
    · exact h.answered i b hold
    · exact hreturns i b (List.mem_singleton.mp hnew).symm
  realtime := h.realtime.imp_of_mem fun {e e'} he _ hbefore hnow => by
    rcases before_concat hnow with hold | ⟨o, rfl⟩
    · exact hbefore hold
    · exact hinvoke _ o rfl e he rfl

/-- The order goes on with a call that takes effect. -/
lemma Linearizes.point {t t' t'' : τ} {as : List (Label ω β)} {order : List (Entry ω β)}
    (h : Linearizes spec t as t' order) {e : Entry ω β} (he : spec e.op t' e.result t'')
    (hmade : Label.invoke e.call e.op ∈ as) (hnew : ∀ e' ∈ order, e'.call ≠ e.call)
    (hopen : ∀ b, Label.returns e.call b ∉ as) :
    Linearizes spec t as t'' (order ++ [e]) where
  replays := replays_concat h.replays he
  once := by
    rw [List.map_append, List.nodup_append]
    refine ⟨h.once, List.nodup_singleton _, fun i hi j hj hij => ?_⟩
    obtain ⟨e', he', rfl⟩ := List.mem_map.mp hi
    rw [List.map_singleton, List.mem_singleton] at hj
    exact hnew e' he' (hij.trans hj)
  made e' he' := by
    rcases List.mem_append.mp he' with hold | hlast
    · exact h.made e' hold
    · rw [List.mem_singleton.mp hlast]
      exact hmade
  answered i b hmem := by
    obtain ⟨o, ho⟩ := h.answered i b hmem
    exact ⟨o, List.mem_append_left _ ho⟩
  realtime := by
    rw [List.pairwise_append]
    refine ⟨h.realtime, List.pairwise_singleton _ _, fun e' _ e'' he'' => ?_⟩
    rw [List.mem_singleton.mp he'']
    exact not_before hopen e'.call

lemma Stands.concat {order : List (Entry ω β)} {i : ℕ} {o : ω} {q : Prog σ β}
    (h : Stands Inv view spec order i o q) {e : Entry ω β} (he : e.call ≠ i) :
    Stands Inv view spec (order ++ [e]) i o q := by
  obtain ⟨hatomic, hnew⟩ | ⟨b, hreturns, hmem⟩ := h
  · refine .inl ⟨hatomic, fun e' he' => ?_⟩
    rcases List.mem_append.mp he' with hold | hlast
    · exact hnew e' hold
    · rw [List.mem_singleton.mp hlast]
      exact he
  · exact .inr ⟨b, hreturns, List.mem_append_left _ hmem⟩

/-- A call is made. -/
lemma Traced.invoke {t : τ} {as : List (Label ω β)} {p : Pool σ β} {order : List (Entry ω β)}
    (h : Traced Inv view spec t as p order) {i : ℕ} {o : ω} {q : Prog σ β}
    (hc : p.calls i = .notMade) (hq : q.Atomic Inv view (spec o)) :
    Traced Inv view spec t (as ++ [.invoke i o])
      { p with calls := Function.update p.calls i (.runs q) } order := by
  have hnew : ∀ e ∈ order, e.call ≠ i := fun e he hei =>
    h.notMade i hc e.op (hei ▸ h.linearizes.made e he)
  have hopen : ∀ b, Label.returns i b ∉ as := fun b hb => by
    obtain ⟨o', ho'⟩ := h.linearizes.answered i b hb
    exact hnew _ ho' rfl
  refine ⟨h.inv, h.proper.invoke o (h.notMade i hc) hopen,
    h.linearizes.label (fun j o' hl => ?_) (fun j b hl => by cases hl),
    fun j hj o' hmem => ?_, fun j q' hj => ?_⟩
  · cases hl
    exact hnew
  · obtain ⟨hji, hold⟩ := of_update_eq hj (by simp)
    rcases List.mem_append.mp hmem with hmem | hmem
    · exact h.notMade j hold o' hmem
    · simp only [List.mem_singleton, Label.invoke.injEq] at hmem
      exact hji hmem.1
  · by_cases hji : j = i
    · subst hji
      obtain rfl : q = q' := by simpa using hj
      exact ⟨fun b hb => hopen b (by simpa using hb), o, by simp, .inl ⟨hq, hnew⟩⟩
    · obtain ⟨hret, o', hmade, hstands⟩ := h.runs j q' (by simpa [hji] using hj)
      exact ⟨fun b hb => hret b (by simpa using hb), o', List.mem_append_left _ hmade, hstands⟩

/-- A call returns. -/
lemma Traced.returns {t : τ} {as : List (Label ω β)} {p : Pool σ β} {order : List (Entry ω β)}
    (h : Traced Inv view spec t as p order) {i : ℕ} {b : β} (hc : p.calls i = .runs (.done b)) :
    Traced Inv view spec t (as ++ [.returns i b])
      { p with calls := Function.update p.calls i .returned } order := by
  obtain ⟨-, o, -, hstands⟩ := h.runs i _ hc
  have hmem : ⟨i, o, b⟩ ∈ order := by
    obtain ⟨hatomic, -⟩ | ⟨b', rfl, hmem⟩ := hstands
    · exact hatomic.elim
    · exact hmem
  refine ⟨h.inv, h.proper.label (fun j o' hl => by cases hl),
    h.linearizes.label (fun j o' hl => by cases hl) (fun j b' hl => ?_),
    fun j hj o' hmade => ?_, fun j q hj => ?_⟩
  · cases hl
    exact ⟨o, hmem⟩
  · obtain ⟨-, hold⟩ := of_update_eq hj (by simp)
    exact h.notMade j hold o' (by simpa using hmade)
  · obtain ⟨hji, hold⟩ := of_update_eq hj (by simp)
    obtain ⟨hret, o', hmade, hstands⟩ := h.runs j q hold
    refine ⟨fun b' hb' => ?_, o', List.mem_append_left _ hmade, hstands⟩
    rcases List.mem_append.mp hb' with hb' | hb'
    · exact hret b' hb'
    · simp only [List.mem_singleton, Label.returns.injEq] at hb'
      exact hji hb'.1

/-- A call gets on by one access, after which `r` explains the run. -/
lemma Traced.access {t : τ} {as : List (Label ω β)} {p : Pool σ β} {order r : List (Entry ω β)}
    (h : Traced Inv view spec t as p order) {i : ℕ} {effect : σ → σ} {next : σ → Prog σ β} {o : ω}
    (hc : p.calls i = .runs (.access effect next)) (hmade : Label.invoke i o ∈ as)
    (hinv : Inv (effect p.shared)) (hr : Linearizes spec t as (view (effect p.shared)) r)
    (hothers : ∀ j o' q, j ≠ i → Stands Inv view spec order j o' q → Stands Inv view spec r j o' q)
    (hnow : Stands Inv view spec r i o (next p.shared)) :
    Traced Inv view spec t (as ++ [.access i])
      ⟨effect p.shared, Function.update p.calls i (.runs (next p.shared))⟩ r := by
  refine ⟨hinv, h.proper.label (fun j o' hl => by cases hl),
    hr.label (fun j o' hl => by cases hl) (fun j b hl => by cases hl),
    fun j hj o' hmade' => ?_, fun j q hj => ?_⟩
  · obtain ⟨-, hold⟩ := of_update_eq hj (by simp)
    exact h.notMade j hold o' (by simpa using hmade')
  · by_cases hji : j = i
    · subst hji
      obtain rfl : next p.shared = q := by simpa using hj
      exact ⟨fun b hb => (h.runs j _ hc).1 b (by simpa using hb), o,
        List.mem_append_left _ hmade, hnow⟩
    · obtain ⟨hret, o', hmade', hstands⟩ := h.runs j q (by simpa [hji] using hj)
      exact ⟨fun b hb => hret b (by simpa using hb), o', List.mem_append_left _ hmade',
        hothers j o' q hji hstands⟩

/-- **One step**: the order stays, or goes on with the call that takes effect. -/
lemma traced_step {prog : ω → Prog σ β} (hprog : ∀ o, (prog o).Atomic Inv view (spec o)) {t : τ}
    {as : List (Label ω β)} {p p' : Pool σ β} {order : List (Entry ω β)} {l : Label ω β}
    (h : Traced Inv view spec t as p order) (hl : Moves prog p l p') :
    ∃ order', Traced Inv view spec t (as ++ [l]) p' order' := by
  cases hl with
  | invoke hc => exact ⟨order, h.invoke hc (hprog _)⟩
  | returns hc => exact ⟨order, h.returns hc⟩
  | @access i effect next hc =>
      obtain ⟨hret, o, hmade, hstands⟩ := h.runs i _ hc
      -- Where the view is left, the order stays.
      have hstay : Inv (effect p.shared) → view (effect p.shared) = view p.shared →
          Stands Inv view spec order i o (next p.shared) →
          ∃ order', Traced Inv view spec t (as ++ [.access i])
            ⟨effect p.shared, Function.update p.calls i (.runs (next p.shared))⟩ order' :=
        fun hinv hview hnow => ⟨order, h.access hc hmade hinv
          (by rw [hview]; exact h.linearizes) (fun _ _ _ _ hj => hj) hnow⟩
      obtain ⟨hatomic, hnew⟩ | ⟨b, hreturns, hmem⟩ := hstands
      · obtain ⟨hinv, ⟨hview, hrest⟩ | ⟨b, heff, hreturns⟩⟩ := hatomic p.shared h.inv
        · exact hstay hinv hview (.inl ⟨hrest, hnew⟩)
        · have hpoint := h.linearizes.point (e := ⟨i, o, b⟩) heff hmade hnew hret
          exact ⟨order ++ [⟨i, o, b⟩], h.access hc hmade hinv hpoint
            (fun j o' q hji hj => hj.concat fun hij => hji hij.symm)
            (.inr ⟨b, hreturns, by simp⟩)⟩
      · obtain ⟨hinv, hview, hrest⟩ := hreturns p.shared h.inv
        exact hstay hinv hview (.inr ⟨b, hrest, hmem⟩)

variable [DecidableEq β]

lemma traced_run {prog : ω → Prog σ β} (hprog : ∀ o, (prog o).Atomic Inv view (spec o)) {t : τ}
    {s : σ} {as bs : List (Label ω β)} {p p' : Pool σ β} {order : List (Entry ω β)}
    (h : Traced Inv view spec t as p order) (hr : (system prog s).run p bs = some p') :
    ∃ order', Traced Inv view spec t (as ++ bs) p' order' := by
  induction bs generalizing as p order with
  | nil =>
      obtain rfl : p = p' := Option.some.inj hr
      exact ⟨order, by simpa using h⟩
  | cons l bs ih =>
      obtain ⟨p₁, hstep, hrest⟩ := Option.bind_eq_some_iff.mp hr
      obtain ⟨order₁, hnext⟩ := traced_step hprog h (step_moves hstep)
      obtain ⟨order', hlast⟩ := ih hnext hrest
      exact ⟨order', by simpa using hlast⟩

/-- **Calls of atomic programs are linearizable**, in every interleaving of their accesses. -/
theorem linearizable {prog : ω → Prog σ β} (hprog : ∀ o, (prog o).Atomic Inv view (spec o))
    {s : σ} (hs : Inv s) {as : List (Label ω β)} {p : Pool σ β}
    (hr : (system prog s).run (system prog s).init as = some p) :
    Inv p.shared ∧ Proper as ∧
      ∃ order, Linearizes spec (view s) as (view p.shared) order := by
  have hinit : Traced Inv view spec (view s) [] (system prog s).init [] :=
    ⟨hs, ⟨by simp, fun i ⟨b, o, hsub⟩ => by simp at hsub⟩,
      ⟨rfl, List.nodup_nil, by simp, by simp, .nil⟩, by simp, fun i q hq => by cases hq⟩
  obtain ⟨order, htraced⟩ := traced_run hprog hinit hr
  exact ⟨htraced.inv, htraced.proper, order, by simpa using htraced.linearizes⟩

/-! ### What calls set -/

/-- Something that an operation sets or leaves: a call that is acknowledged has set it. -/
def Sets {ε : Type u} (spec : ω → τ → β → τ → Prop) (ack : β → Prop) (get : τ → ε)
    (set : ω → Option ε) : Prop :=
  ∀ ⦃o t b t'⦄, spec o t b t' →
    set o = some (get t') ∨ (get t' = get t ∧ ((set o).isSome → ¬ ack b))

omit [DecidableEq β] in
/-- What is there at the end of an order: it is from before, or the last call that has set it is
followed by none that was acknowledged. -/
lemma Sets.last {ε : Type u} {ack : β → Prop} {get : τ → ε} {set : ω → Option ε}
    (h : Sets spec ack get set) {order : List (Entry ω β)} {t t' : τ}
    (hr : Replays spec order t t') :
    (get t' = get t ∧ ∀ e ∈ order, (set e.op).isSome → ¬ ack e.result) ∨
      ∃ front e back, order = front ++ e :: back ∧ set e.op = some (get t') ∧
        ∀ e' ∈ back, (set e'.op).isSome → ¬ ack e'.result := by
  induction order generalizing t with
  | nil =>
      obtain rfl : t = t' := hr
      exact .inl ⟨rfl, by simp⟩
  | cons e es ih =>
      obtain ⟨t₁, he, hrest⟩ := hr
      obtain ⟨hsame, hnone⟩ | ⟨front, e', back, rfl, hset, hback⟩ := ih hrest
      · obtain hset | ⟨hleft, hack⟩ := h he
        · exact .inr ⟨[], e, es, rfl, by rw [hsame]; exact hset, hnone⟩
        · refine .inl ⟨hsame.trans hleft, fun e' he' => ?_⟩
          rcases List.mem_cons.mp he' with rfl | he'
          · exact hack
          · exact hnone e' he'
      · exact .inr ⟨e :: front, e', back, rfl, hset, hback⟩

omit [DecidableEq β] in
/-- **Nothing acknowledged is lost**: what is there was set by a call that had not returned when
an acknowledged call was made, or it is from before and no call was acknowledged. -/
theorem Linearizes.newest {ε : Type u} {ack : β → Prop} {get : τ → ε} {set : ω → Option ε}
    (hsets : Sets spec ack get set) {t t' : τ} {as : List (Label ω β)} {order : List (Entry ω β)}
    (h : Linearizes spec t as t' order) (hproper : Proper as) :
    (get t' = get t ∧ ∀ i o b, Label.invoke i o ∈ as → (set o).isSome →
        Label.returns i b ∈ as → ¬ ack b) ∨
      ∃ i o, Label.invoke i o ∈ as ∧ set o = some (get t') ∧
        ∀ j o' b, Label.invoke j o' ∈ as → (set o').isSome → Label.returns j b ∈ as → ack b →
          ¬ Before as i j := by
  -- A call that has returned is in the order, with its operation.
  have hentry : ∀ j o b, Label.invoke j o ∈ as → Label.returns j b ∈ as →
      (⟨j, o, b⟩ : Entry ω β) ∈ order := fun j o b hmade hret => by
    obtain ⟨o', hmem⟩ := h.answered j b hret
    rwa [hproper.once j o o' hmade (h.made _ hmem)]
  obtain ⟨hsame, hnone⟩ | ⟨front, e, back, heq, hset, hback⟩ := hsets.last h.replays
  · exact .inl ⟨hsame, fun i o b hmade hsets hret =>
      hnone _ (hentry i o b hmade hret) hsets⟩
  · refine .inr ⟨e.call, e.op, h.made e (by simp [heq]), hset,
      fun j o b hmade hsets hret hack => ?_⟩
    have hmem := hentry j o b hmade hret
    have hpairs := h.realtime
    rw [heq] at hmem hpairs
    rcases List.mem_append.mp hmem with hfront | hrest
    · exact (List.pairwise_append.mp hpairs).2.2 _ hfront e List.mem_cons_self
    · rcases List.mem_cons.mp hrest with rfl | hlater
      · exact hproper.first j
      · exact absurd hack (hback _ hlater hsets)

end RewardsDriver.Interleaved
