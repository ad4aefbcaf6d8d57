import Mathlib.Data.Fintype.Card
import IpNdnStack.Framework.Run
import IpNdnStack.Impl.PacketHandlers
import IpNdnStack.Proof.Publisher

/-!
# Packet handlers, interleaved

`Transition` says what each step of a handler can do (`step_iff`); one that runs
by itself does what `deal` does (`run_deal`). As long as no handler's first
`get` misses a key on which another handler is at work (`NoRace`), the table
counts the tuples published (`Orderly`); once one does, two handlers of a flow
end with the number 1 or with a failure (`Doomed`). So a run of all handlers to
their end is as if they had run one after another just when no `get` races
(`handlers_safe_iff`).
-/

namespace IpNdn

/-- The tuple went out. -/
def Stage.isPublished : Stage → Bool
  | .published _ => true
  | _ => false

/-- The handler has the mutex. -/
def Stage.inside : Stage → Bool
  | .getFirst | .erase _ | .saveNext _ => true
  | _ => false

/-- The handler saves the number 1, or did, or has failed. -/
def Stage.late : Stage → Bool
  | .save | .failed => true
  | .published index => index = 1
  | _ => false

namespace Handlers

variable {ι : Type} [DecidableEq ι]

/-! ## The steps -/

section

variable (flow : ι → Flow) (s : Handlers ι) (i : ι)

/-- What the next step of `i` does, with what it finds in the table. -/
inductive Transition : Handlers ι → Prop
  | miss (h : s.stage i = .get) (ht : s.sequenceTable.get (flow i).key = none) : Transition (s.goto i .save)
  | hit {v : BitVec 32} (h : s.stage i = .get) (ht : s.sequenceTable.get (flow i).key = some v) :
    Transition (s.goto i .lock)
  | saved (h : s.stage i = .save) (ht : s.sequenceTable.get (flow i).key = none) :
    Transition ({ s with
      sequenceTable := ⟨Function.update s.sequenceTable.ipPacketCache (flow i).key (some 1)⟩ }.goto i (.published 1))
  | saveFailed {v : BitVec 32} (h : s.stage i = .save) (ht : s.sequenceTable.get (flow i).key = some v) :
    Transition (s.goto i .failed)
  | locked (h : s.stage i = .lock) (ho : s.owner = none) : Transition ({ s with owner := some i }.goto i .getFirst)
  | first {v : BitVec 32} (h : s.stage i = .getFirst) (ht : s.sequenceTable.get (flow i).key = some v) :
    Transition (s.goto i (.erase v))
  | firstFailed (h : s.stage i = .getFirst) (ht : s.sequenceTable.get (flow i).key = none) :
    Transition ({ s with owner := none }.goto i .failed)
  | erased {v : BitVec 32} (h : s.stage i = .erase v) :
    Transition ({ s with sequenceTable := s.sequenceTable.erase (flow i).key }.goto i (.saveNext v))
  | savedNext {v : BitVec 32} (h : s.stage i = .saveNext v) (ht : s.sequenceTable.get (flow i).key = none) :
    Transition ({ s with
      sequenceTable := ⟨Function.update s.sequenceTable.ipPacketCache (flow i).key (some (v + 1))⟩
      owner := none }.goto i (.published (v + 1)))
  | nextFailed {v w : BitVec 32} (h : s.stage i = .saveNext v) (ht : s.sequenceTable.get (flow i).key = some w) :
    Transition ({ s with owner := none }.goto i .failed)

variable {flow s i}

theorem Step.transition {s' : Handlers ι} (h : Step flow s i s') : Transition flow s i s' := by
  unfold Step step at h
  split at h
  · rename_i hs
    split at h <;> cases h
    · exact .miss hs ‹_›
    · exact .hit hs ‹_›
  · rename_i hs
    rcases ht : s.sequenceTable.get (flow i).key with _ | v
    · rw [MapCacheHelper.save_of_none ht] at h
      cases h
      exact .saved hs ht
    · rw [MapCacheHelper.save_of_some ht] at h
      cases h
      exact .saveFailed hs ht
  · rename_i hs
    split at h <;> cases h
    exact .locked hs ‹_›
  · rename_i hs
    split at h <;> cases h
    · exact .firstFailed hs ‹_›
    · exact .first hs ‹_›
  · rename_i hs
    cases h
    exact .erased hs
  · rename_i v hs
    rcases ht : s.sequenceTable.get (flow i).key with _ | w
    · rw [MapCacheHelper.save_of_none ht] at h
      cases h
      exact .savedNext hs ht
    · rw [MapCacheHelper.save_of_some ht] at h
      cases h
      exact .nextFailed hs ht
  · cases h
  · cases h

theorem step_iff : Step flow s i s' ↔ Transition flow s i s' := by
  refine ⟨Step.transition, fun h => ?_⟩
  cases h with
  | saved h ht | savedNext h ht => simp only [Step, step, h, MapCacheHelper.save_of_none ht]; rfl
  | saveFailed h ht | nextFailed h ht => simp only [Step, step, h, MapCacheHelper.save_of_some ht]; rfl
  | erased h => simp only [Step, step, h]
  | locked h ho => simp only [Step, step, h, ho]
  | miss h ht | hit h ht | first h ht | firstFailed h ht => simp only [Step, step, h, ht]

@[simp] theorem goto_stage (x : Stage) (j : ι) : (s.goto i x).stage j = if j = i then x else s.stage j := by
  simp only [goto, Function.update_apply]

@[simp] theorem goto_owner (x : Stage) : (s.goto i x).owner = s.owner := rfl

@[simp] theorem goto_sequenceTable (x : Stage) : (s.goto i x).sequenceTable = s.sequenceTable := rfl

/-- A handler that runs by itself does what `deal` does of a tuple with its bytes. -/
theorem run_deal {t : Tuple} {g : Gateway} (ht : t.Numbered) (hb : t.HasBytes) (hf : flow i = t.flow)
    (hg : s.sequenceTable = g.sequenceTable) (hi : s.stage i = .get) (ho : s.owner = none) (uuid : Text) :
    ∃ tr s' n, Run (Step flow) s tr s' ∧ deal t uuid g = .ok ⟨⟩ (g.published t n) ∧ s'.stage i = .published n ∧
      s'.sequenceTable = (g.published t n).sequenceTable ∧ s'.owner = none := by
  obtain ⟨table, owner, stage⟩ := s
  subst hg ho
  have h0 : Run (Step flow) ⟨g.sequenceTable, none, stage⟩ [] _ := .nil
  have hd := deal_next ht hb uuid g
  rw [nextNumber] at hd
  rcases hk : g.sequenceTable.get t.flow.key with _ | v
  · have h1 := h0.snoc (step_iff.mpr (.miss hi (hf ▸ hk)))
    have h2 := h1.snoc (step_iff.mpr (.saved (i := i) (by simp) (by simpa [hf] using hk)))
    rw [hk] at hd
    refine ⟨_, _, 1, h2, hd, by simp, ?_, rfl⟩
    simp [hf, Gateway.published]
  · have h1 := h0.snoc (step_iff.mpr (.hit hi (hf ▸ hk)))
    have h2 := h1.snoc (step_iff.mpr (.locked (i := i) (by simp) rfl))
    have h3 := h2.snoc (step_iff.mpr (.first (i := i) (by simp) (by simpa [hf] using hk)))
    have h4 := h3.snoc (step_iff.mpr (.erased (i := i) (v := v) (by simp)))
    have h5 := h4.snoc (step_iff.mpr (.savedNext (i := i) (v := v) (by simp) (by simp [MapCacheHelper.get_erase])))
    rw [hk] at hd
    refine ⟨_, _, v + 1, h5, hd, by simp, ?_, rfl⟩
    simp [hf, Gateway.published, MapCacheHelper.erase, Function.update_idem]

end

/-! ## What is asked of a run -/

section

variable [Fintype ι] (flow : ι → Flow)

/-- How many tuples of a flow there are. -/
def total (f : Flow) : Nat := (Finset.univ.filter fun i => flow i = f).card

/-- How many of them went out. -/
def sent (s : Handlers ι) (f : Flow) : Nat :=
  (Finset.univ.filter fun i => flow i = f ∧ (s.stage i).isPublished).card

def Finished (s : Handlers ι) : Prop := ∀ i, (∃ v, s.stage i = .published v) ∨ s.stage i = .failed

/-- No handler took a failure; no two tuples of a flow have one number; and
once all have ended, the table has the number of tuples of each flow. -/
structure Safe (s : Handlers ι) : Prop where
  notFailed : ∀ i, s.stage i ≠ .failed
  distinct : ∀ i j v, flow i = flow j → s.stage i = .published v → s.stage j = .published v → i = j
  stored : s.Finished → ∀ i, ∃ v, s.sequenceTable.get (flow i).key = some v ∧ v.toInt = total flow (flow i)

omit [Fintype ι] in
/-- If the next step of `i` is `deal`'s `get` and finds no entry, no handler of
the flow is about to save one. -/
def NoRace (s : Handlers ι) (i : ι) : Prop :=
  s.stage i = .get → s.sequenceTable.get (flow i).key = none →
    ∀ j, flow j = flow i → s.stage j ≠ .save ∧ ∀ v, s.stage j ≠ .saveNext v

variable {s : Handlers ι} {i : ι}

theorem sent_update (s' : Handlers ι) {x : Stage} (hs : s'.stage = Function.update s.stage i x)
    (hi : ¬ (s.stage i).isPublished) (f : Flow) :
    s'.sent flow f = s.sent flow f + if flow i = f ∧ x.isPublished then 1 else 0 := by
  have hni : i ∉ Finset.univ.filter fun j => flow j = f ∧ (s.stage j).isPublished := fun h =>
    hi (Finset.mem_filter.mp h).2.2
  by_cases hx : flow i = f ∧ x.isPublished
  · rw [if_pos hx, sent, sent, ← Finset.card_insert_of_notMem hni, hs]
    congr 1
    ext j
    by_cases e : j = i <;> simp [e, hx]
  · rw [if_neg hx, sent, sent, hs]
    congr 1
    ext j
    by_cases e : j = i
    · subst e
      simpa [hi] using fun h => by simpa [h] using hx
    · simp [e]

theorem sent_update_eq (s' : Handlers ι) {x : Stage} (hs : s'.stage = Function.update s.stage i x)
    (hi : ¬ (s.stage i).isPublished) (hx : ¬ x.isPublished) (f : Flow) : s'.sent flow f = s.sent flow f := by
  rw [sent_update flow s' hs hi, if_neg fun h => hx h.2, Nat.add_zero]

variable {flow}

omit [DecidableEq ι] in
theorem sent_pos {v : BitVec 32} (h : s.stage i = .published v) : s.sent flow (flow i) ≠ 0 :=
  Finset.card_ne_zero_of_mem (Finset.mem_filter.mpr ⟨Finset.mem_univ i, rfl, by rw [h]; rfl⟩)

omit [DecidableEq ι] in
theorem exists_published {f : Flow} (h : s.sent flow f ≠ 0) : ∃ i v, flow i = f ∧ s.stage i = .published v := by
  obtain ⟨i, hi⟩ := Finset.card_ne_zero.mp h
  obtain ⟨-, hf, hp⟩ := Finset.mem_filter.mp hi
  unfold Stage.isPublished at hp
  split at hp
  · exact ⟨i, _, hf, ‹_›⟩
  · cases hp

omit [DecidableEq ι] in
/-- While a handler of a flow is not done, not all of its tuples went out. -/
theorem sent_lt_total (hi : ¬ (s.stage i).isPublished) : s.sent flow (flow i) < total flow (flow i) := by
  refine Finset.card_lt_card (Finset.ssubset_iff_of_subset ?_ |>.mpr ⟨i, by simp, by simp [hi]⟩)
  exact fun j hj => by simpa using (Finset.mem_filter.mp hj).2.1

/-! ## Without races -/

variable (flow) in
/-- The table counts the tuples that went out, but for the flow whose entry a
handler has erased. A handler about to save 1 is the first of its flow. -/
structure Orderly (s : Handlers ι) : Prop where
  notFailed : ∀ i, s.stage i ≠ .failed
  number : ∀ i v, s.stage i = .published v → ∃ k, k ≤ s.sent flow (flow i) ∧ v = BitVec.ofNat 32 k
  distinct : ∀ i j v, flow i = flow j → s.stage i = .published v → s.stage j = .published v → i = j
  absent : ∀ f, s.sent flow f = 0 → s.sequenceTable.get f.key = none
  erased : ∀ i v, s.stage i = .saveNext v → s.sequenceTable.get (flow i).key = none
  counted : ∀ f, s.sent flow f ≠ 0 → (∀ i v, flow i = f → s.stage i ≠ .saveNext v) →
    s.sequenceTable.get f.key = some (BitVec.ofNat 32 (s.sent flow f))
  first : ∀ i, s.stage i = .save → ∀ j, flow j = flow i → j ≠ i → s.stage j = .get
  later : ∀ i, s.stage i = .lock ∨ s.stage i = .getFirst → s.sent flow (flow i) ≠ 0
  increasing : ∀ i v, s.stage i = .erase v ∨ s.stage i = .saveNext v →
    s.sent flow (flow i) ≠ 0 ∧ v = BitVec.ofNat 32 (s.sent flow (flow i))
  owner : ∀ i, (s.stage i).inside → s.owner = some i

omit [DecidableEq ι] in
/-- Before the first save of a flow, nothing of it went out. -/
theorem Orderly.sent_save (ho : Orderly flow s) (i : ι) (h : s.stage i = .save) : s.sent flow (flow i) = 0 := by
  by_contra hn
  obtain ⟨j, v, hf, hj⟩ := exists_published hn
  have hg := ho.first i h j hf (by rintro rfl; rw [h] at hj; cases hj)
  rw [hg] at hj
  cases hj

omit [DecidableEq ι] in
theorem orderly_start : Orderly flow (start : Handlers ι) where
  notFailed _ h := nomatch h
  number _ _ h := nomatch h
  distinct _ _ _ _ h := nomatch h
  absent _ _ := rfl
  erased _ _ h := nomatch h
  counted f hf _ := by
    obtain ⟨_, _, _, h⟩ := exists_published hf
    cases h
  first _ h := nomatch h
  later _ h := nomatch h
  increasing _ _ h := nomatch h
  owner _ h := nomatch h

/-- A first `get` that misses without a race: the handler is the first of its
flow, and no other one has begun. -/
theorem Orderly.miss (ho : Orderly flow s) (h : s.stage i = .get) (ht : s.sequenceTable.get (flow i).key = none)
    (hr : NoRace flow s i) : Orderly flow (s.goto i .save) := by
  have hn := sent_update_eq flow (s.goto i .save) rfl (by rw [h]; decide) (by decide)
  have hsave := ho.sent_save
  have hr := hr h ht
  have h0 : s.sent flow (flow i) = 0 := by
    by_contra hne
    rw [ho.counted (flow i) hne fun j v hf => (hr j hf).2 v] at ht
    cases ht
  have hp : ∀ j v, s.stage j = .published v → s.sent flow (flow j) ≠ 0 := fun _ _ => sent_pos
  obtain ⟨notFailed, number, distinct, absent, erased, counted, first, later, increasing, owner⟩ := ho
  constructor <;> simp only [hn, goto_stage, goto_owner, goto_sequenceTable]
  case first =>
    intro a ha b hb hne
    cases hx : s.stage b <;> grind
  all_goals grind [Stage.inside]

theorem Orderly.hit (ho : Orderly flow s) {v : BitVec 32} (h : s.stage i = .get)
    (ht : s.sequenceTable.get (flow i).key = some v) : Orderly flow (s.goto i .lock) := by
  have hn := sent_update_eq flow (s.goto i .lock) rfl (by rw [h]; decide) (by decide)
  have hsave := ho.sent_save
  obtain ⟨notFailed, number, distinct, absent, erased, counted, first, later, increasing, owner⟩ := ho
  constructor <;> simp only [hn, goto_stage, goto_owner, goto_sequenceTable] <;> grind [Stage.inside]

theorem Orderly.locked (ho : Orderly flow s) (h : s.stage i = .lock) (hw : s.owner = none) :
    Orderly flow ({ s with owner := some i }.goto i .getFirst) := by
  have hn := sent_update_eq flow (s := s) ({ s with owner := some i }.goto i .getFirst) rfl
    (by rw [h]; decide) (by decide)
  obtain ⟨notFailed, number, distinct, absent, erased, counted, first, later, increasing, owner⟩ := ho
  constructor <;> simp only [hn, goto_stage, goto_owner, goto_sequenceTable] <;> grind [Stage.inside]

omit [DecidableEq ι] in
/-- Under the mutex the entry is there, with the count: no other handler can
have erased it. -/
theorem Orderly.get_inside (ho : Orderly flow s) (h : s.stage i = .getFirst) :
    s.sequenceTable.get (flow i).key = some (BitVec.ofNat 32 (s.sent flow (flow i))) := by
  refine ho.counted (flow i) (ho.later i (.inr h)) fun j v _ hj => ?_
  have hi := ho.owner i (by rw [h]; rfl)
  have hj' := ho.owner j (by rw [hj]; rfl)
  rw [hi, Option.some.injEq] at hj'
  rw [← hj', h] at hj
  cases hj

theorem Orderly.begun (ho : Orderly flow s) {v : BitVec 32} (h : s.stage i = .getFirst)
    (ht : s.sequenceTable.get (flow i).key = some v) : Orderly flow (s.goto i (.erase v)) := by
  have hn := sent_update_eq flow (s.goto i (.erase v)) rfl (by rw [h]; decide) Bool.false_ne_true
  rw [ho.get_inside h, Option.some.injEq] at ht
  obtain ⟨notFailed, number, distinct, absent, erased, counted, first, later, increasing, owner⟩ := ho
  constructor <;> simp only [hn, goto_stage, goto_owner, goto_sequenceTable] <;> grind [Stage.inside]

theorem Orderly.erasing (ho : Orderly flow s) {v : BitVec 32} (h : s.stage i = .erase v) :
    Orderly flow ({ s with sequenceTable := s.sequenceTable.erase (flow i).key }.goto i (.saveNext v)) := by
  have hn := sent_update_eq flow (s := s) (x := .saveNext v)
    ({ s with sequenceTable := s.sequenceTable.erase (flow i).key }.goto i (.saveNext v)) rfl
    (by rw [h]; exact Bool.false_ne_true) Bool.false_ne_true
  have hk : ∀ f g : Flow, f.key = g.key → f = g := fun _ _ => Flow.key_inj
  obtain ⟨notFailed, number, distinct, absent, erased, counted, first, later, increasing, owner⟩ := ho
  constructor <;> simp only [hn, goto_stage, goto_owner, goto_sequenceTable, MapCacheHelper.get_erase] <;>
    grind [Stage.inside]

/-- A handler that saves the next number of its flow. -/
theorem Orderly.publish (ho : Orderly flow s) (hb : ∀ f, total flow f < 2 ^ 31)
    (h : s.stage i = .save ∨ ∃ v, s.stage i = .saveNext v) {o : Option ι}
    (hw : ∀ j, j ≠ i → (s.stage j).inside → o = some j) {n : BitVec 32}
    (hv : n = BitVec.ofNat 32 (s.sent flow (flow i) + 1)) :
    Orderly flow
      (goto ⟨⟨Function.update s.sequenceTable.ipPacketCache (flow i).key (some n)⟩, o, s.stage⟩ i (.published n)) := by
  have hi : ¬ (s.stage i).isPublished := by
    rcases h with h | ⟨v, h⟩ <;> rw [h] <;> exact Bool.false_ne_true
  have hn := sent_update flow (s := s)
    (goto ⟨⟨Function.update s.sequenceTable.ipPacketCache (flow i).key (some n)⟩, o, s.stage⟩ i
      (.published n)) rfl hi
  -- The number is none that went out before.
  have hnew : ∀ k ≤ s.sent flow (flow i), BitVec.ofNat 32 k ≠ BitVec.ofNat 32 (s.sent flow (flow i) + 1) := by
    intro k hk e
    have hlt : s.sent flow (flow i) < total flow (flow i) := sent_lt_total hi
    have := hb (flow i)
    have := ofNat_inj (by omega) (by omega) e
    omega
  have hsave := ho.sent_save
  have hk : ∀ f g : Flow, f.key = g.key → f = g := fun _ _ => Flow.key_inj
  obtain ⟨notFailed, number, distinct, absent, erased, counted, first, later, increasing, owner⟩ := ho
  subst hv
  constructor <;> simp only [hn, goto_stage, goto_owner, goto_sequenceTable, MapCacheHelper.get_update]
  case counted =>
    intro f hf hne
    by_cases e : flow i = f
    · grind [Stage.isPublished]
    · rw [if_neg fun hc => e (hk _ _ hc).symm, if_neg fun hc => e hc.1, Nat.add_zero]
      rw [if_neg fun hc => e hc.1, Nat.add_zero] at hf
      refine counted f hf fun j w hj hs => hne j w hj ?_
      rw [if_neg (by rintro rfl; exact e hj), hs]
  all_goals grind [Stage.inside, Stage.isPublished]

/-- A step that does not race keeps order; no step can fail. -/
theorem Orderly.step (ho : Orderly flow s) (hb : ∀ f, total flow f < 2 ^ 31) {s' : Handlers ι}
    (hs : Step flow s i s') (hr : NoRace flow s i) : Orderly flow s' := by
  cases hs.transition with
  | miss h ht => exact ho.miss h ht hr
  | hit h ht => exact ho.hit h ht
  | saved h ht =>
    refine ho.publish hb (.inl h) (fun j _ hj => ho.owner j hj) ?_
    rw [ho.sent_save i h]
    rfl
  | saveFailed h ht =>
    rw [ho.absent _ (ho.sent_save i h)] at ht
    cases ht
  | locked h hw => exact ho.locked h hw
  | first h ht => exact ho.begun h ht
  | firstFailed h ht =>
    rw [ho.get_inside h] at ht
    cases ht
  | erased h => exact ho.erasing h
  | savedNext h ht =>
    refine ho.publish hb (.inr ⟨_, h⟩) (fun j hne hj => ?_) ?_
    · have hi := ho.owner i (by rw [h]; rfl)
      rw [ho.owner j hj, Option.some.injEq] at hi
      exact absurd hi hne
    · rw [(ho.increasing i _ (.inr h)).2, BitVec.ofNat_add]
      rfl
  | nextFailed h ht =>
    rw [ho.erased i _ h] at ht
    cases ht

omit [DecidableEq ι] in
theorem Orderly.safe (ho : Orderly flow s) (hb : ∀ f, total flow f < 2 ^ 31) : Safe flow s := by
  refine ⟨ho.notFailed, ho.distinct, fun hf i => ?_⟩
  have hp : ∀ j, ∃ v, s.stage j = .published v := fun j => (hf j).resolve_right (ho.notFailed j)
  have he : s.sent flow (flow i) = total flow (flow i) := by
    rw [sent, total]
    congr 1
    refine Finset.filter_congr fun j _ => ⟨And.left, fun hj => ⟨hj, ?_⟩⟩
    obtain ⟨v, hv⟩ := hp j
    rw [hv]
    rfl
  obtain ⟨v, hv⟩ := hp i
  have hc := ho.counted (flow i) (sent_pos hv) fun j w _ hj => by
    obtain ⟨u, hu⟩ := hp j
    rw [hu] at hj
    cases hj
  rw [he] at hc
  exact ⟨_, hc, toInt_ofNat (hb (flow i))⟩

end

/-! ## With a race -/

section

variable (flow : ι → Flow) (s : Handlers ι)

/-- A tuple of the flow went out with the number 1. -/
def FirstOut (f : Flow) : Prop := ∃ j, flow j = f ∧ s.stage j = .published 1

/-- An entry that is in the table, or was and will be again, began with a tuple
that went out with the number 1. -/
structure Begun : Prop where
  entry : ∀ f, s.sequenceTable.get f.key ≠ none → FirstOut flow s f
  inside : ∀ i v, s.stage i = .erase v ∨ s.stage i = .saveNext v → FirstOut flow s (flow i)

/-- Two handlers of a flow have saved the number 1, or will try to. -/
def Doomed : Prop := ∃ i j, i ≠ j ∧ flow i = flow j ∧ (s.stage i).late ∧ (s.stage j).late

variable {flow s} {s' : Handlers ι} {i : ι}

theorem FirstOut.step {f : Flow} (h : FirstOut flow s f) (hs : Step flow s i s') : FirstOut flow s' f := by
  obtain ⟨j, hj, h1⟩ := h
  refine ⟨j, hj, ?_⟩
  have hne : j = i → s.stage i = .published 1 := by rintro rfl; exact h1
  cases hs.transition <;> rw [goto_stage, if_neg (by grind), h1]

omit [DecidableEq ι] in
theorem begun_start : Begun flow (start : Handlers ι) where
  entry _ h := absurd rfl h
  inside _ _ h := by rcases h with h | h <;> cases h

theorem Begun.step (h : Begun flow s) (hs : Step flow s i s') : Begun flow s' := by
  have hk : ∀ f g : Flow, f.key = g.key → f = g := fun _ _ => Flow.key_inj
  have hout : ∀ f, FirstOut flow s f → FirstOut flow s' f := fun f hf => hf.step hs
  have hnew : s'.stage i = .published 1 → FirstOut flow s' (flow i) := fun e => ⟨i, rfl, e⟩
  have hnext : ∀ v, s.stage i = .saveNext v → FirstOut flow s' (flow i) := fun v hv =>
    hout _ (h.inside i v (.inr hv))
  obtain ⟨entry, inside⟩ := h
  cases hs.transition <;> constructor <;>
    simp only [goto_stage, goto_sequenceTable, MapCacheHelper.get_update, MapCacheHelper.get_erase] at hnew ⊢ <;>
    grind

theorem late_step (hs : Step flow s i s') {j : ι} (hj : (s.stage j).late) : (s'.stage j).late := by
  cases hs.transition <;> rw [goto_stage] <;> split <;> grind [Stage.late]

theorem Doomed.step (h : Doomed flow s) (hs : Step flow s i s') : Doomed flow s' := by
  obtain ⟨a, b, hne, hf, ha, hb⟩ := h
  exact ⟨a, b, hne, hf, late_step hs ha, late_step hs hb⟩

/-- A first `get` that races leaves two handlers at the number 1. -/
theorem doomed_of_race (h : Begun flow s) (hs : Step flow s i s') (hr : ¬ NoRace flow s i) :
    Doomed flow s' := by
  simp only [NoRace, not_forall] at hr
  obtain ⟨hg, ht, j, hj, hr⟩ := hr
  have e : s' = s.goto i .save := by
    cases hs.transition <;> simp_all
  subst e
  by_cases hsave : s.stage j = .save
  · have hne : i ≠ j := by rintro rfl; rw [hg] at hsave; cases hsave
    exact ⟨i, j, hne, hj.symm, by simp [Stage.late], by simp [hne.symm, hsave, Stage.late]⟩
  · obtain ⟨v, hv⟩ : ∃ v, s.stage j = .saveNext v := by
      by_contra hc
      exact hr ⟨hsave, fun v hv => hc ⟨v, hv⟩⟩
    obtain ⟨k, hk, h1⟩ := h.inside j v (.inr hv)
    have hne : i ≠ k := by rintro rfl; rw [hg] at h1; cases h1
    exact ⟨i, k, hne, (hk.trans hj).symm, by simp [Stage.late], by simp [hne.symm, h1, Stage.late]⟩

omit [DecidableEq ι] in
theorem Doomed.not_safe [Fintype ι] (h : Doomed flow s) (hf : s.Finished) : ¬ Safe flow s := by
  intro hs
  obtain ⟨a, b, hne, hab, ha, hb⟩ := h
  have one : ∀ j, (s.stage j).late → s.stage j = .published 1 := fun j hj => by
    rcases hf j with ⟨v, hv⟩ | hv
    · rw [hv] at hj ⊢
      rw [of_decide_eq_true hj]
    · exact absurd hv (hs.notFailed j)
  exact hne (hs.distinct a b 1 hab (one a ha) (one b hb))

end

/-! ## Runs -/

omit [DecidableEq ι] in
theorem Safe.total_lt [Fintype ι] {flow : ι → Flow} {s : Handlers ι} (h : Safe flow s) (hf : s.Finished) (f : Flow) :
    total flow f < 2 ^ 31 := by
  by_contra hn
  have hpos : total flow f ≠ 0 := by omega
  obtain ⟨i, hi⟩ := Finset.card_ne_zero.mp hpos
  obtain ⟨v, -, hv⟩ := h.stored hf i
  rw [(Finset.mem_filter.mp hi).2] at hv
  have := BitVec.toInt_lt (x := v)
  omega

/-- Along a run without races, of fewer than `2 ^ 31` tuples a flow, nothing
goes wrong; and a run of all handlers to their end comes out right only if it
is such a run. -/
theorem handlers_safe_iff [Fintype ι] (flow : ι → Flow) (tr : List (Handlers ι × ι)) (s : Handlers ι)
    (h : Run (Step flow) start tr s) :
    ((∀ f, total flow f < 2 ^ 31) → (∀ p ∈ tr, NoRace flow p.1 p.2) → ∀ t ∈ states tr s, Safe flow t) ∧
      (s.Finished → (Safe flow s ↔ (∀ f, total flow f < 2 ^ 31) ∧ ∀ p ∈ tr, NoRace flow p.1 p.2)) := by
  have hall : (∀ f, total flow f < 2 ^ 31) → (∀ p ∈ tr, NoRace flow p.1 p.2) → ∀ t ∈ states tr s, Safe flow t :=
    fun hb hr t ht => by
      have hstep : ∀ s i s', Orderly flow s → Step flow s i s' → NoRace flow s i → Orderly flow s' :=
        fun _ _ _ ho hs hr => ho.step hb hs hr
      exact (h.forall_states orderly_start hstep hr t ht).safe hb
  refine ⟨hall, fun hf => ⟨fun hs => ⟨hs.total_lt hf, ?_⟩, fun ⟨hb, hr⟩ => hall hb hr s (mem_states_self tr s)⟩⟩
  by_contra hr
  push Not at hr
  have hrace : ∀ s i s', Begun flow s → Step flow s i s' → ¬ NoRace flow s i → Doomed flow s' :=
    fun _ _ _ hb hs hr => doomed_of_race hb hs hr
  have hd : Doomed flow s := h.of_mem begun_start (fun _ _ _ hb hs => hb.step hs) hrace
    (fun _ _ _ hd hs => hd.step hs) hr
  exact hd.not_safe hf hs

/-- Two handlers, of one flow. -/
def oneFlow : Fin 2 → Flow := fun _ => ⟨1, 2, 3, 4⟩

/-- Both `get`s before both `save`s: the second `save` fails. -/
theorem not_safe_two_firsts : ∃ tr s, Run (Step oneFlow) start tr s ∧ ¬ Safe oneFlow s := by
  have h0 : Run (Step oneFlow) start [] start := .nil
  have h1 := h0.snoc (show Step oneFlow _ 0 _ from rfl)
  have h2 := h1.snoc (show Step oneFlow _ 1 _ from rfl)
  have h3 := h2.snoc (show Step oneFlow _ 0 _ from rfl)
  have h4 := h3.snoc (show Step oneFlow _ 1 _ from rfl)
  exact ⟨_, _, h4, fun h => h.notFailed 1 rfl⟩

/-- One handler after the other. -/
theorem safe_one_by_one : ∃ tr s, Run (Step oneFlow) start tr s ∧ s.stage 0 = .published 1 ∧
    s.stage 1 = .published 2 ∧ Safe oneFlow s := by
  have h0 : Run (Step oneFlow) start [] start := .nil
  have h1 := h0.snoc (show Step oneFlow _ 0 _ from rfl)
  have h2 := h1.snoc (show Step oneFlow _ 0 _ from rfl)
  have h3 := h2.snoc (show Step oneFlow _ 1 _ from rfl)
  have h4 := h3.snoc (show Step oneFlow _ 1 _ from rfl)
  have h5 := h4.snoc (show Step oneFlow _ 1 _ from rfl)
  have h6 := h5.snoc (show Step oneFlow _ 1 _ from rfl)
  have h7 := h6.snoc (show Step oneFlow _ 1 _ from rfl)
  refine ⟨_, _, h7, rfl, rfl, ?_⟩
  · refine (handlers_safe_iff oneFlow _ _ h7).1 (fun f => ?_) ?_ _ (mem_states_self _ _)
    · exact lt_of_le_of_lt (Finset.card_le_univ _) (by decide)
    · have first : NoRace oneFlow start 0 := fun _ _ _ _ => ⟨nofun, nofun⟩
      simp only [List.forall_mem_append, List.forall_mem_singleton]
      exact ⟨⟨⟨⟨⟨⟨⟨nofun, first⟩, nofun⟩, fun _ h => nomatch h⟩, nofun⟩, nofun⟩, nofun⟩, nofun⟩

end Handlers

end IpNdn
