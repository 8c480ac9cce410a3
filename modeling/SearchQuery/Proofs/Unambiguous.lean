import Mathlib.Logic.Function.Basic
import Mathlib.Tactic.Lemma
import SearchQuery.Query.Outline

/-!
# Texts that can be taken apart

A text that is put together from parts loses nothing if it can be told where each part ends, and
which part it is.  There are three ways to tell: a part ends by itself (`SelfDelimiting`), or a
character stands after it that cannot be in it (`append_stop_inj`), or parts that may be missing
come in a fixed order and look different from those behind them (`optional_append_inj`).
-/

namespace SearchQuery

variable {α β : Type}

/-- Wherever the text of `a` stands in front, it is told from the text of any other value, and so is
what comes after it. -/
def SelfDelimiting (text : α → String) (a : α) : Prop :=
  ∀ ⦃b : α⦄ ⦃r s : List Char⦄, (text a).toList ++ r = (text b).toList ++ s → a = b ∧ r = s

/-- A part ends at the first character that cannot be in it. -/
lemma append_stop_inj {stops : Char → Bool} {u v r s : List Char} {d e : Char}
    (hu : ∀ c ∈ u, stops c = false) (hv : ∀ c ∈ v, stops c = false) (hd : stops d = true)
    (he : stops e = true) (h : u ++ d :: r = v ++ e :: s) : u = v ∧ d = e ∧ r = s := by
  induction u generalizing v with
  | nil =>
    cases v with
    | nil =>
      obtain ⟨hde, hrs⟩ := List.cons.inj h
      exact ⟨rfl, hde, hrs⟩
    | cons c v =>
      obtain ⟨rfl, -⟩ := List.cons.inj h
      rw [hv d List.mem_cons_self] at hd
      cases hd
  | cons c u ih =>
    cases v with
    | nil =>
      obtain ⟨rfl, -⟩ := List.cons.inj h
      rw [hu c List.mem_cons_self] at he
      cases he
    | cons c' v =>
      obtain ⟨rfl, htail⟩ := List.cons.inj h
      obtain ⟨rfl, rest⟩ := ih (fun x hx => hu x (List.mem_cons_of_mem _ hx))
        (fun x hx => hv x (List.mem_cons_of_mem _ hx)) htail
      exact ⟨rfl, rest⟩

/-- Whether a part is missing is seen from what stands there instead, if none of the parts behind it
look the same. -/
lemma optional_append_inj {part : α → β} (inj : Function.Injective part) {o₁ o₂ : Option α}
    {r₁ r₂ : List β} (h₁ : ∀ a, part a ∉ r₁) (h₂ : ∀ a, part a ∉ r₂)
    (h : o₁.toList.map part ++ r₁ = o₂.toList.map part ++ r₂) : o₁ = o₂ ∧ r₁ = r₂ := by
  cases o₁ with
  | none =>
    cases o₂ with
    | none => exact ⟨rfl, h⟩
    | some b =>
      have hr : r₁ = part b :: r₂ := h
      exact absurd (hr ▸ List.mem_cons_self) (h₁ b)
  | some a =>
    cases o₂ with
    | none =>
      have hr : part a :: r₁ = r₂ := h
      exact absurd (hr ▸ List.mem_cons_self) (h₂ a)
    | some b =>
      obtain ⟨hab, hr⟩ := List.cons.inj h
      exact ⟨congrArg some (inj hab), hr⟩

/-- What may be missing is told by a list of at most one part. -/
lemma optional_inj {part : α → β} (inj : Function.Injective part) {o₁ o₂ : Option α}
    (h : o₁.toList.map part = o₂.toList.map part) : o₁ = o₂ := by
  rw [← List.append_nil (o₁.toList.map part), ← List.append_nil (o₂.toList.map part)] at h
  exact (optional_append_inj inj (fun _ => List.not_mem_nil) (fun _ => List.not_mem_nil) h).1

/-! ## Parts of modifiers -/

lemma Modifiers.eq_of_parts {m n : Modifiers} (field : m.field = n.field)
    (marker : m.marker = n.marker) (boost : m.boost = n.boost)
    (operator : m.operator = n.operator) : m = n := by
  cases m
  cases n
  simp_all

lemma Marker.name_injective : Function.Injective Marker.name := by
  intro a b h
  cases a <;> cases b <;> simp [Marker.name] at h ⊢

lemma Operator.keyword_injective : Function.Injective Operator.keyword := by
  intro a b h
  cases a <;> cases b <;> simp [Operator.keyword] at h ⊢

end SearchQuery
