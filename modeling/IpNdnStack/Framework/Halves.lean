import Mathlib.Data.List.Basic

/-!
# A state of two halves

Two threads, one at work on each half of a state. An action on one half
(`Acts`) leaves the other as it is and reads nothing of it, so a half ends as
if its own thread had run alone, however the two are interleaved
(`foldl_filter`). What is made of events in turn can be told apart in the same
way (`filter_flatMap_eq`).
-/

namespace IpNdn

variable {σ α ε : Type}

/-- The action `f` does `F` to the part `part` of a state. -/
def Acts (part : σ → α) (F : α → α) (f : σ → σ) : Prop := ∀ s, part (f s) = F (part s)

theorem Acts.foldl_filter {part : σ → α} {f : ε → σ → σ} {own : ε → Bool}
    (h : ∀ e, own e = true → ∃ F, Acts part F (f e)) (hn : ∀ e, own e = false → Acts part id (f e))
    (es : List ε) {s t : σ} (hs : part s = part t) :
    part (es.foldl (fun s e => f e s) s) = part ((es.filter own).foldl (fun s e => f e s) t) := by
  induction es generalizing s t with
  | nil => exact hs
  | cons e es ih =>
    rcases ho : own e with _ | _
    · rw [List.foldl_cons, List.filter_cons_of_neg (by rw [ho]; exact Bool.false_ne_true)]
      apply ih
      rw [hn e ho s, hs]
      rfl
    · obtain ⟨F, hF⟩ := h e ho
      rw [List.foldl_cons, List.filter_cons_of_pos ho, List.foldl_cons]
      apply ih
      rw [hF s, hF t, hs]

/-- Where each event makes things of one kind, those of a kind are made by its
own events. -/
theorem filter_flatMap_eq {f : ε → List α} {p : α → Bool} {own : ε → Bool}
    (h : ∀ e, (f e).filter p = if own e then f e else []) (es : List ε) :
    (es.flatMap f).filter p = (es.filter own).flatMap f := by
  induction es with
  | nil => rfl
  | cons e es ih =>
    rw [List.flatMap_cons, List.filter_append, h, ih, List.filter_cons]
    split <;> rfl

end IpNdn
