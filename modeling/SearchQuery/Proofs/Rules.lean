import SearchQuery.Proofs.Demands

/-!
# Rules for reading on demand

Two judgements about a production that is begun while `e` groups are open, and the rules that
productions are put together by.  Both leave `e` groups open and keep account of the lookaheads.

## Ensuring

`Ensures c e p P` says that `p` never gives back a lookahead, and that a value it takes for `k`
lookaheads satisfies `P`, provided that no limit was reached on the way.  The proviso is known only
at the end of reading, and so `Ensures.bind` collects what the steps say about each other as
hypotheses of the last one.  A production that is begun only where a certain token was seen has that
as a hypothesis of what it ensures.

## Taking and refusing

`Takes c e k p a` says that `p` does take `a`, from every state with `k` lookaheads to spare, and
for no more than these.  `Refuses` says the same of a refusal.  Here what stands at each place is
known from the start, so the rules ask for the kind that a lookahead will see.
-/

namespace SearchQuery

/-! ## Ensuring -/

/-- What a production pays and what its value satisfies. -/
def Reply.Pays {α : Type} (e : Nat) (P : α → Nat → Prop) (s : State) : Reply α → Prop
  | .took a s' => s'.depth = e ∧ ∀ n, s'.Has n → ∃ k, s.Has (n + k) ∧ P a k
  | .refused s' => s'.depth = e ∧ ∀ n, s'.Has n → s.Has n
  | .fault _ => True

/-- A production pays for its value, which satisfies a condition, in any state in which `e` groups
are open. -/
def Ensures {α : Type} (c : Setting) (e : Nat) (p : Production α) (P : α → Nat → Prop) : Prop :=
  ∀ s, s.depth = e → (p c s).Pays e P s

/-- What is paid after something else was paid is paid along with that. -/
lemma Reply.Pays.after {β : Type} {e : Nat} {A : Nat → Prop} {R Q : β → Nat → Prop} {s s₁ : State}
    {x : Reply β} (h : x.Pays e R s₁) (before : ∀ n, s₁.Has n → ∃ k, s.Has (n + k) ∧ A k)
    (hQ : ∀ b j k, R b j → A k → Q b (k + j)) : x.Pays e Q s := by
  cases x with
  | fault cause => trivial
  | refused s₂ =>
    obtain ⟨hs₂, after⟩ := h
    refine ⟨hs₂, ?_⟩
    intro n hn
    obtain ⟨k, ⟨hreached, hleft⟩, -⟩ := before n (after n hn)
    exact ⟨hreached, fun left hl => le_trans (by omega) (hleft left hl)⟩
  | took b s₂ =>
    obtain ⟨hs₂, after⟩ := h
    refine ⟨hs₂, ?_⟩
    intro n hn
    obtain ⟨j, hj, hb⟩ := after n hn
    obtain ⟨k, hk, ha⟩ := before (n + j) hj
    exact ⟨k + j, by rwa [Nat.add_comm k j, ← Nat.add_assoc], hQ b j k hb ha⟩

namespace Ensures

variable {α β : Type} {c : Setting} {e o : Nat} {p : Production α} {f : α → Production β}
  {P : α → Nat → Prop} {Q : β → Nat → Prop}

lemma pure {a : α} (h : P a 0) : Ensures c e (pure a) P := by
  intro s hs
  exact ⟨hs, fun n hn => ⟨0, hn, h⟩⟩

lemma bind (hp : Ensures c e p P)
    (hf : ∀ a, Ensures c e (f a) fun b j => ∀ k, P a k → Q b (k + j)) :
    Ensures c e (p >>= f) Q := by
  intro s hs
  have paid := hp s hs
  rw [Production.bind_apply]
  cases hr : p c s with
  | fault cause => trivial
  | refused s₁ =>
    rw [hr] at paid
    exact paid
  | took a s₁ =>
    rw [hr] at paid
    exact (hf a s₁ paid.1).after paid.2 fun b j k hb ha => hb k ha

lemma mono {P' : α → Nat → Prop} (hp : Ensures c e p P) (h : ∀ a k, P a k → P' a k) :
    Ensures c e p P' := by
  intro s hs
  have paid := hp s hs
  cases hr : p c s with
  | fault cause => trivial
  | refused s' =>
    rw [hr] at paid
    exact paid
  | took a s' =>
    rw [hr] at paid
    refine ⟨paid.1, ?_⟩
    intro n hn
    obtain ⟨k, hk, ha⟩ := paid.2 n hn
    exact ⟨k, hk, h a k ha⟩

end Ensures

/-! ### Steps -/

variable {c : Setting} {e o : Nat}

/-- A text stands between two places. -/
def Setting.Between (c : Setting) (o : Nat) (w : List Char) (o' : Nat) : Prop :=
  c.rest o = w ++ c.rest o'

namespace Setting.Between

variable {o₁ o₂ : Nat} {v w : List Char}

lemma refl (c : Setting) (o : Nat) : c.Between o [] o := rfl

lemma append (h₁ : c.Between o v o₁) (h₂ : c.Between o₁ w o₂) : c.Between o (v ++ w) o₂ := by
  unfold Setting.Between at *
  rw [h₁, h₂, List.append_assoc]

/-- The token that was seen at a place stands from there on. -/
lemma token {k : Kind} (h : c.kindAt o = k) (hk : k ≠ .endOfInput) :
    c.Between o (c.textAt o) (c.next o) ∧ k.Form (c.textAt o) := by
  obtain ⟨form, hrest, -⟩ := Setting.reads_of_kindAt h hk
  exact ⟨hrest, form⟩

end Setting.Between

lemma ensures_lookAt : Ensures c e (OnDemand.lookAt o) fun kind k => k = 1 ∧ c.kindAt o = kind := by
  intro s hs
  obtain ⟨s', hr, hdepth, has⟩ := lookAt_eq c s o
  rw [hr]
  refine ⟨by rw [hdepth, hs], ?_⟩
  intro n hn
  exact ⟨1, (has n).1 hn, rfl, (kindSeen_of_has hn).symm⟩

/-- The place after a token and the text of a token are had for nothing. -/
lemma ensures_next {P : Nat → Nat → Prop} (h : P (c.next o) 0) :
    Ensures c e (OnDemand.next o) P := by
  intro s hs
  exact ⟨hs, fun n hn => ⟨0, hn, h⟩⟩

lemma ensures_next_bind {α : Type} {f : Nat → Production α} {P : α → Nat → Prop}
    (h : Ensures c e (f (c.next o)) P) : Ensures c e (OnDemand.next o >>= f) P := h

lemma ensures_textAt_bind {α : Type} {f : List Char → Production α} {P : α → Nat → Prop}
    (h : Ensures c e (f (c.textAt o)) P) : Ensures c e (OnDemand.textAt o >>= f) P := h

lemma ensures_refuseAt {α : Type} {expected : KindSet} {P : α → Nat → Prop} :
    Ensures c e (OnDemand.refuseAt o expected) P := by
  intro s hs
  exact ⟨hs, fun n hn => hn⟩

/-- What was missed leaves no trace in what is paid. -/
lemma ensures_miss {α : Type} {expected : KindSet} {p : Production α} {P : α → Nat → Prop}
    (hp : Ensures c e p P) : Ensures c e (OnDemand.miss o expected >>= fun _ => p) P := by
  intro s hs
  exact hp (s.recordAt o expected) hs

lemma ensures_expect {kind : Kind} :
    Ensures c e (OnDemand.expect o kind) fun o' k =>
      k = 1 ∧ c.kindAt o = kind ∧ o' = c.next o := by
  unfold OnDemand.expect Cursor.expect
  refine ensures_lookAt.bind ?_
  intro seen
  split_ifs with hseen
  · exact ensures_next fun k h => ⟨h.1, by rw [h.2, hseen], rfl⟩
  · exact ensures_refuseAt

lemma ensures_skipBlank :
    Ensures c e (OnDemand.skipBlank o) fun o' k =>
      k = 1 ∧ ∃ w, IsGap w ∧ c.Between o w o' := by
  unfold OnDemand.skipBlank Cursor.skipBlank
  refine ensures_lookAt.bind ?_
  intro seen
  split_ifs with hseen
  · refine ensures_next ?_
    rintro k ⟨rfl, hkind⟩
    obtain ⟨between, form⟩ := Setting.Between.token (hkind.trans hseen) (by simp)
    exact ⟨rfl, _, form.2, between⟩
  · refine Ensures.pure ?_
    rintro k ⟨rfl, -⟩
    exact ⟨rfl, [], isGap_nil, Setting.Between.refl c o⟩

/-- A group is opened only where it fits, and its body is read one level deeper. -/
lemma ensures_nested {α : Type} {p : Production α} {P : α → Nat → Prop}
    (hp : Ensures c (e + 1) p P) :
    Ensures c e (Production.nestedAt o p) fun a k => c.Fits (e + 1) ∧ P a k := by
  rintro s rfl
  cases hfull : c.fullAt s.depth with
  | some limit =>
    rw [Production.nestedAt_of_full hfull]
    exact ⟨State.depth_reach .., fun n hn => absurd hn State.not_has_reach⟩
  | none =>
    rw [Production.nestedAt_of_free hfull]
    have fits := Setting.fullAt_eq_none_iff.1 hfull
    have paid := hp { s with depth := s.depth + 1 } rfl
    cases hr : p c { s with depth := s.depth + 1 } with
    | fault cause => trivial
    | refused s' =>
      rw [hr] at paid
      exact ⟨by simp [paid.1], paid.2⟩
    | took a s' =>
      rw [hr] at paid
      refine ⟨by simp [paid.1], ?_⟩
      intro n hn
      obtain ⟨k, hk, ha⟩ := paid.2 n hn
      exact ⟨k, hk, fits, ha⟩

/-! ## Taking and refusing -/

/-- With enough lookaheads, a production that is begun while `e` groups are open takes a value for
no more than `k` of them. -/
def Takes {α : Type} (c : Setting) (e k : Nat) (p : Production α) (a : α) : Prop :=
  ∀ s n, s.depth = e → s.Has (n + k) → ∃ s', p c s = .took a s' ∧ s'.depth = e ∧ s'.Has n

/-- The same for a production that refuses. -/
def Refuses {α : Type} (c : Setting) (e k : Nat) (p : Production α) : Prop :=
  ∀ s n, s.depth = e → s.Has (n + k) → ∃ s', p c s = .refused s' ∧ s'.depth = e ∧ s'.Has n

section rules

variable {α β : Type} {c : Setting} {e j k o : Nat} {p : Production α} {f : α → Production β}
  {a : α} {b : β}

lemma takes_pure : Takes c e 0 (pure a) a := fun s _ hs hn => ⟨s, rfl, hs, hn⟩

lemma Takes.bind (hp : Takes c e j p a) (hf : Takes c e k (f a) b) :
    Takes c e (j + k) (p >>= f) b := by
  intro s n hs hn
  rw [Nat.add_comm j k, ← Nat.add_assoc] at hn
  obtain ⟨s₁, hr, hs₁, hn₁⟩ := hp s (n + k) hs hn
  obtain ⟨s₂, hr₂, hs₂, hn₂⟩ := hf s₁ n hs₁ hn₁
  exact ⟨s₂, by rw [Production.bind_of_took hr, hr₂], hs₂, hn₂⟩

lemma Takes.bind_refuses (hp : Takes c e j p a) (hf : Refuses c e k (f a)) :
    Refuses c e (j + k) (p >>= f) := by
  intro s n hs hn
  rw [Nat.add_comm j k, ← Nat.add_assoc] at hn
  obtain ⟨s₁, hr, hs₁, hn₁⟩ := hp s (n + k) hs hn
  obtain ⟨s₂, hr₂, hs₂, hn₂⟩ := hf s₁ n hs₁ hn₁
  exact ⟨s₂, by rw [Production.bind_of_took hr, hr₂], hs₂, hn₂⟩

lemma Refuses.bind (hp : Refuses c e k p) : Refuses c e k (p >>= f) := by
  intro s n hs hn
  obtain ⟨s₁, hr, hs₁, hn₁⟩ := hp s n hs hn
  exact ⟨s₁, by rw [Production.bind_apply, hr], hs₁, hn₁⟩

lemma takes_lookAt : Takes c e 1 (OnDemand.lookAt o) (c.kindAt o) := by
  intro s n hs hn
  obtain ⟨s', hr, hdepth, has⟩ := lookAt_eq c s o
  have hn' := (has n).2 hn
  exact ⟨s', by rw [hr, kindSeen_of_has hn'], hdepth.trans hs, hn'⟩

lemma takes_lookAt_bind {f : Kind → Production β} {kind : Kind} (h : c.kindAt o = kind)
    (hf : Takes c e k (f kind) b) : Takes c e (1 + k) (OnDemand.lookAt o >>= f) b :=
  takes_lookAt.bind (h ▸ hf)

lemma refuses_lookAt_bind {f : Kind → Production β} {kind : Kind} (h : c.kindAt o = kind)
    (hf : Refuses c e k (f kind)) : Refuses c e (1 + k) (OnDemand.lookAt o >>= f) :=
  takes_lookAt.bind_refuses (h ▸ hf)

lemma takes_miss {expected : KindSet} (hp : Takes c e k p a) :
    Takes c e k (OnDemand.miss o expected >>= fun _ => p) a :=
  fun s n hs hn => hp (s.recordAt o expected) n hs hn

lemma refuses_miss {expected : KindSet} (hp : Refuses c e k p) :
    Refuses c e k (OnDemand.miss o expected >>= fun _ => p) :=
  fun s n hs hn => hp (s.recordAt o expected) n hs hn

lemma refuses_refuseAt {expected : KindSet} :
    Refuses c e 0 (OnDemand.refuseAt o expected : Production α) :=
  fun s _ hs hn => ⟨s.recordAt o expected, rfl, hs, hn⟩

lemma takes_next_bind {f : Nat → Production β} {o' : Nat} (h : c.next o = o')
    (hf : Takes c e k (f o') b) : Takes c e k (OnDemand.next o >>= f) b := by
  rw [← h] at hf
  exact hf

lemma takes_textAt_bind {f : List Char → Production β} {w : List Char} (h : c.textAt o = w)
    (hf : Takes c e k (f w) b) : Takes c e k (OnDemand.textAt o >>= f) b := by
  rw [← h] at hf
  exact hf

lemma takes_expect {kind : Kind} (h : c.kindAt o = kind) :
    Takes c e 1 (OnDemand.expect o kind) (c.next o) := by
  unfold OnDemand.expect Cursor.expect
  refine takes_lookAt_bind (k := 0) h ?_
  rw [if_pos rfl]
  exact takes_next_bind rfl takes_pure

lemma refuses_expect {kind : Kind} (h : c.kindAt o ≠ kind) :
    Refuses c e 1 (OnDemand.expect o kind) := by
  unfold OnDemand.expect Cursor.expect
  refine refuses_lookAt_bind (k := 0) rfl ?_
  rw [if_neg h]
  exact refuses_refuseAt

/-- A group is opened where one more fits. -/
lemma takes_nested (fits : c.Fits (e + 1)) (hp : Takes c (e + 1) k p a) :
    Takes c e k (Production.nestedAt o p) a := by
  rintro s n rfl hn
  obtain ⟨s', hr, hs', hn'⟩ := hp { s with depth := s.depth + 1 } n rfl hn
  refine ⟨{ s' with depth := s'.depth - 1 }, ?_, by simp [hs'], hn'⟩
  rw [Production.nestedAt_of_free (Setting.fullAt_eq_none_iff.2 fits), hr]
  rfl

end rules

end SearchQuery
