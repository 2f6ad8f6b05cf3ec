/-!
# Where words end

Several words are written one after another, and it is to be seen where each of them ends. That is
so if a word consists of characters of some kind and what comes behind it starts with one of
another kind, such as a separator.

* `Rulebook.eq_and_eq_of_append` – words are **told from what comes behind them** by the kind of
  their characters;
* `Rulebook.eq_and_eq_of_append_separator` – the same for words without a separator in them, and a
  separator behind them;
* `Rulebook.exists_eq_append_of_notMem` – a word without a character **comes before** it.
-/

namespace Rulebook

/-- Words of characters of some kind are the same if they are the same with what comes behind
them, which starts with a character of another kind. -/
theorem eq_and_eq_of_append {p : Char → Bool} {xs ys us vs : List Char}
    (hx : ∀ c ∈ xs, p c = true) (hy : ∀ c ∈ ys, p c = true) (hu : ∀ c ∈ us.head?, p c = false)
    (hv : ∀ c ∈ vs.head?, p c = false) (h : xs ++ us = ys ++ vs) : xs = ys ∧ us = vs := by
  have htake : ∀ zs ws : List Char, (∀ c ∈ zs, p c = true) → (∀ c ∈ ws.head?, p c = false) →
      (zs ++ ws).takeWhile p = zs := by
    intro zs ws hz hw
    rw [List.takeWhile_append_of_pos hz]
    cases ws with
    | nil => simp
    | cons c ws => simp [hw c rfl]
  have hxy : xs = ys := by rw [← htake xs us hx hu, h, htake ys vs hy hv]
  subst hxy
  exact ⟨rfl, List.append_cancel_left h⟩

/-- A word without a character is of the kind of all others. -/
theorem forall_mem_ne_of_notMem {x : Char} {xs : List Char} (h : x ∉ xs) :
    ∀ c ∈ xs, (c != x) = true := by
  intro c hc
  rw [bne_iff_ne]
  rintro rfl
  exact h hc

/-- Two words that end at the first separator are equal if they are equal with the separator and
whatever comes behind it, and then so is that. -/
theorem eq_and_eq_of_append_separator {x : Char} {xs ys us vs : List Char} (hx : x ∉ xs)
    (hy : x ∉ ys) (h : xs ++ x :: us = ys ++ x :: vs) : xs = ys ∧ us = vs := by
  obtain ⟨hword, hrest⟩ := eq_and_eq_of_append (forall_mem_ne_of_notMem hx)
    (forall_mem_ne_of_notMem hy) (by simp) (by simp) h
  exact ⟨hword, (List.cons.inj hrest).2⟩

/-- What is written before a character that it does not have in it comes before that one. -/
theorem exists_eq_append_of_notMem {x : Char} {us vs ws zs : List Char} (hx : x ∉ us)
    (h : us ++ vs = ws ++ x :: zs) : ∃ ss, ws = us ++ ss ∧ vs = ss ++ x :: zs := by
  rcases List.append_eq_append_iff.1 h with ⟨ss, hws, hvs⟩ | ⟨ss, hus, hzs⟩
  · exact ⟨ss, hws, hvs⟩
  · cases ss with
    | nil => exact ⟨[], by simpa using hus.symm, hzs.symm⟩
    | cons c ss =>
      obtain ⟨rfl, -⟩ := List.cons.inj hzs
      exact absurd (by simp [hus]) hx

end Rulebook
