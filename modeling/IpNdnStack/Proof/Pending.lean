import IpNdnStack.Framework.Run
import IpNdnStack.Proof.Guess

/-!
# Interests in flight

A receiving gateway with the Interests it waits for, as a machine: it handles
pre-requests, and each of its Interests gets its Data, times out or is Nacked.
A name in the table of guesses is being fetched or was (`Fetching`) as long as
no timeout or Nack leaves it there: `forall_fetching_iff`.
-/

namespace IpNdn

open Handler

/-- A gateway, the names of the Interests in flight, and those that got their
Data. -/
structure Receiver where
  gateway : Gateway
  pending : List Text
  received : List Text

/-- What can happen next. An Interest goes by its name. -/
inductive ReceiverEvent (L : Libs)
  | preRequest (interest : L.Name)
  | data (name : Text) (dataName : L.Name) (content : List Byte)
  | timeout (name : Text)
  | nack (name : Text)

/-- After a callback, the Interests it expressed are in flight. -/
def Receiver.call (s : Receiver) (callback : GatewayM Unit) : Receiver :=
  let g := after callback s.gateway
  { s with
    gateway := g
    pending := s.pending ++ interestNames (g.face.drop s.gateway.face.length) }

/-- One Interest named `name` is no longer in flight. -/
def Receiver.drop (s : Receiver) (name : Text) : Receiver := { s with pending := s.pending.erase name }

def Receiver.receive (s : Receiver) (name : Text) : Receiver :=
  { s.drop name with received := name :: s.received }

/-- The callbacks of an Interest expressed by `dealOnTcpPreRequest` are bound
to `isPre` false and `isTCP` true. -/
inductive ReceiverStep (L : Libs) : Receiver → ReceiverEvent L → Receiver → Prop
  | preRequest (s : Receiver) (interest : L.Name) :
    ReceiverStep L s (.preRequest interest) (s.call (onInterest L interest true true))
  | data {s : Receiver} {name : Text} (h : name ∈ s.pending) {dataName : L.Name}
      (hd : L.isPrefixOf (L.ofUri name) dataName) (content : List Byte) :
    ReceiverStep L s (.data name dataName content)
      ((s.receive name).call (onData L dataName content false true))
  | timeout {s : Receiver} {name : Text} (h : name ∈ s.pending) :
    ReceiverStep L s (.timeout name) ((s.drop name).call (onTimeout false))
  | nack {s : Receiver} {name : Text} (h : name ∈ s.pending) :
    ReceiverStep L s (.nack name) ((s.drop name).call onNack)

/-- Every name in the table is being fetched or was. -/
def Fetching (s : Receiver) : Prop :=
  ∀ name ∈ s.gateway.prefixGuestTable.s, name ∈ s.pending ∨ name ∈ s.received

/-- The Interest that a step ends without Data is for no name in the table, or
the name got its Data before, or another Interest for it is in flight. -/
def Resolved {L : Libs} (s : Receiver) : ReceiverEvent L → Prop
  | .timeout name | .nack name =>
    name ∈ s.gateway.prefixGuestTable.s → name ∈ s.received ∨ name ∈ s.pending.erase name
  | _ => True

/-! ## The steps -/

section

variable {L : Libs}

/-- A pre-request puts no name in the table that it does not ask for. -/
theorem call_preRequest {s : Receiver} (h : Fetching s) (interest : L.Name) :
    Fetching (s.call (onInterest L interest true true)) := by
  by_cases hl : (L.split (L.toUri interest) '/').length < 7
  · have e : after (onInterest L interest true true) s.gateway = s.gateway :=
      after_of_error (dealOnTcpPreRequest_short hl _)
    intro name hn
    simp only [Receiver.call, e] at hn ⊢
    exact (h name hn).imp (List.mem_append_left _) id
  · obtain ⟨r, hr⟩ := after_dealOnTcpPreRequest (Nat.le_of_not_lt hl) s.gateway ⟨s.gateway.prefixGuestTable.s, []⟩
    rw [Gateway.withWindow_self] at hr
    have e : after (onInterest L interest true true) s.gateway = _ := hr
    have hc : (Window.request ⟨s.gateway.prefixGuestTable.s, []⟩ r).Covered
        fun name => name ∈ s.pending ∨ name ∈ s.received :=
      Window.Covered.request (fun name hn => .inl (h name hn)) r
    intro name hn
    simp only [Receiver.call, e] at hn ⊢
    simp only [Gateway.withWindow, List.drop_left, interestNames_map] at hn ⊢
    rcases hc name hn with (hp | hr) | hx
    · exact .inl (List.mem_append_left _ hp)
    · exact .inr hr
    · exact .inl (List.mem_append_right _ hx)

/-- The callbacks that leave the face and the table as they were. -/
theorem fetching_call {s : Receiver} {callback : GatewayM Unit}
    (hf : (after callback s.gateway).face = s.gateway.face)
    (ht : (after callback s.gateway).prefixGuestTable = s.gateway.prefixGuestTable) :
    Fetching (s.call callback) ↔ Fetching s := by
  simp only [Fetching, Receiver.call, hf, ht, List.drop_length, interestNames, List.filterMap_nil, List.append_nil]

theorem after_onData (dataName : L.Name) (content : List Byte) (g : Gateway) :
    (after (onData L dataName content false true) g).face = g.face ∧
      (after (onData L dataName content false true) g).prefixGuestTable = g.prefixGuestTable := by
  rcases h : (L.split (L.toUri dataName) '/')[4]? with _ | ip
  · have e : onData L dataName content false true g = .error .outOfRange g := bind_of_error (fieldAt_of_none h g)
    rw [after_of_error e]
    exact ⟨rfl, rfl⟩
  · have e : onData L dataName content false true g = .ok ⟨⟩ _ := dealOnData_ok h content g
    rw [after_of_ok e]
    exact ⟨rfl, rfl⟩

theorem fetching_receive {s : Receiver} (h : Fetching s) (name : Text) : Fetching (s.receive name) := fun a ha => by
  by_cases e : a = name
  · exact .inr (e ▸ List.mem_cons_self)
  · exact (h a ha).imp (List.mem_erase_of_ne e).mpr (List.mem_cons_of_mem _)

/-- An Interest that ends without Data must not have left its name in the table. -/
theorem fetching_drop_iff {s : Receiver} (h : Fetching s) (name : Text) :
    Fetching (s.drop name) ↔
      (name ∈ s.gateway.prefixGuestTable.s → name ∈ s.received ∨ name ∈ s.pending.erase name) := by
  refine ⟨fun hd hn => (hd name hn).symm, fun hc a ha => ?_⟩
  by_cases e : a = name
  · exact e ▸ (hc (e ▸ ha)).symm
  · exact (h a ha).imp (List.mem_erase_of_ne e).mpr id

theorem fetching_step {s s' : Receiver} {e : ReceiverEvent L} (h : Fetching s) (hs : ReceiverStep L s e s') :
    Fetching s' ↔ Resolved s e := by
  cases hs with
  | preRequest interest => exact ⟨fun _ => trivial, fun _ => call_preRequest h interest⟩
  | data hp hd content =>
    obtain ⟨hf, ht⟩ := after_onData _ content _
    exact ⟨fun _ => trivial, fun _ => (fetching_call hf ht).mpr (fetching_receive h _)⟩
  | timeout hp => exact (fetching_call rfl rfl).trans (fetching_drop_iff h _)
  | nack hp => exact (fetching_call rfl rfl).trans (fetching_drop_iff h _)

end

/-- In a run from an empty table, every name in the table is being fetched or
was, in every state, just when each timeout or Nack was for an Interest that
did not leave its name in the table for nothing. -/
theorem forall_fetching_iff (L : Libs) (g : Gateway) (hg : g.prefixGuestTable = .empty)
    (tr : List (Receiver × ReceiverEvent L)) (s : Receiver) (h : Run (ReceiverStep L) ⟨g, [], []⟩ tr s) :
    (∀ t ∈ states tr s, Fetching t) ↔ ∀ p ∈ tr, Resolved p.1 p.2 := by
  refine h.forall_states_iff (fun name hn => ?_) fun s e s' hi hs => fetching_step hi hs
  rw [show (Receiver.mk g [] []).gateway.prefixGuestTable = .empty from hg] at hn
  exact absurd hn (Finset.notMem_empty _)

/-- A gateway that has handled nothing but the pre-request for packet `n`. -/
def afterPre (L : Libs) (f : Flow) (n : Nat) : Receiver :=
  Receiver.call ⟨.init, [], []⟩ (onInterest L (L.ofUri (f.preName (BitVec.ofNat 32 n))) true true)

theorem run_afterPre (L : Libs) (f : Flow) (n : Nat) :
    Run (ReceiverStep L) ⟨.init, [], []⟩
      ([] ++ [(⟨.init, [], []⟩, .preRequest (L.ofUri (f.preName (BitVec.ofNat 32 n))))]) (afterPre L f n) :=
  .snoc .nil (.preRequest _ _)

/-- Its table and its Interests are those of the window. -/
theorem afterPre_eq {L : Libs} (hL : L.Lawful) (f : Flow) {n : Nat} (hn : n < 2 ^ 31) :
    afterPre L f n =
      ⟨Gateway.init.withWindow (Window.empty.request (f.request (BitVec.ofNat 32 n))),
        (Window.empty.request (f.request (BitVec.ofNat 32 n))).expressed, []⟩ := by
  have h := dealOnInterest_pre hL f (toNat_ofNat_lt hn) .init .empty
  generalize Window.empty.request (f.request (BitVec.ofNat 32 n)) = w at h ⊢
  have e : after (onInterest L (L.ofUri (f.preName (BitVec.ofNat 32 n))) true true) .init =
    Gateway.init.withWindow w := after_of_ok h
  simp only [afterPre, Receiver.call, e]
  simp only [Gateway.withWindow, List.drop_left, interestNames_map, List.nil_append]

/-- A packet is no guess of its own pre-request. -/
theorem request_notMem (f : Flow) {n : Nat} (hn : n < 2 ^ 31) :
    (f.request (BitVec.ofNat 32 n)).1 ∉ (f.request (BitVec.ofNat 32 n)).2 := fun h =>
  absurd ((mem_request_iff hn hn).mp h).2.1 (Nat.lt_irrefl n)

/-- A name in the table with its one Interest in flight: the Interest times
out, and the name stays in the table. -/
theorem not_fetching_timeout {L : Libs} {tr : List (Receiver × ReceiverEvent L)} {s₀ : Receiver} {g : Gateway}
    {w : Window Text} (h : Run (ReceiverStep L) s₀ tr ⟨g.withWindow w, w.expressed, []⟩) {name : Text}
    (hx : name ∈ w.expressed) (ht : name ∈ w.entries) (hd : w.expressed.Nodup) :
    ∃ tr s, Run (ReceiverStep L) s₀ tr s ∧ ¬ Fetching s := by
  refine ⟨_, _, .snoc h (.timeout hx), fun hf => ?_⟩
  exact ((fetching_call rfl rfl).mp hf name ht).elim hd.not_mem_erase List.not_mem_nil

/-- So it is with the guess of the next packet. -/
theorem not_fetching_afterPre {L : Libs} (hL : L.Lawful) (f : Flow) {n : Nat} (hn : n + 1 < 2 ^ 31) :
    ∃ tr s, Run (ReceiverStep L) ⟨.init, [], []⟩ tr s ∧ ¬ Fetching s := by
  have hn' := Nat.lt_of_succ_lt hn
  have hr := run_afterPre L f n
  rw [afterPre_eq hL f hn'] at hr
  have hg : f.dataName (BitVec.ofNat 32 (n + 1)) ∈ (f.request (BitVec.ofNat 32 n)).2 :=
    (mem_request_iff hn hn').mpr ⟨rfl, Nat.lt_succ_self n, by rw [NUM_OF_GUEST]; omega⟩
  have ho := request_notMem f hn'
  generalize f.request (BitVec.ofNat 32 n) = r at hr hg ho
  have hx := (((Window.covered_empty fun _ => False).formal r.1).mem_guesses hg).resolve_left id
  have ht : f.dataName (BitVec.ofNat 32 (n + 1)) ∈ (Window.empty.request r).entries := by
    rw [Window.request, Window.entries_guesses]
    exact Finset.mem_union_right _ (List.mem_toFinset.mpr hg)
  exact not_fetching_timeout hr hx ht (Window.nodup_request ho)

/-- The Interest for packet 1 itself times out; its name is not in the table. -/
theorem fetching_afterPre_one : ∃ tr s, Run (ReceiverStep textLibs) ⟨.init, [], []⟩ tr s ∧
    (∃ p ∈ tr, p.2 = .timeout (Flow.dataName ⟨1, 2, 3, 4⟩ 1)) ∧ ∀ t ∈ states tr s, Fetching t := by
  have hr := run_afterPre textLibs ⟨1, 2, 3, 4⟩ 1
  rw [afterPre_eq textLibs_lawful ⟨1, 2, 3, 4⟩ (by decide)] at hr
  obtain ⟨r, e⟩ : ∃ r, r = Flow.request ⟨1, 2, 3, 4⟩ (BitVec.ofNat 32 1) := ⟨_, rfl⟩
  have ho : r.1 ∉ r.2 := e ▸ request_notMem ⟨1, 2, 3, 4⟩ (by decide)
  rw [← e] at hr
  have hx : r.1 ∈ (Window.empty.request r).expressed :=
    (Window.expressed_request _ _).subset (List.mem_append_right _ List.mem_cons_self)
  have h := hr.snoc (.timeout hx)
  refine ⟨_, _, h, ⟨_, List.mem_append_right _ List.mem_cons_self, congrArg ReceiverEvent.timeout (e ▸ rfl)⟩,
    (forall_fetching_iff textLibs .init rfl _ _ h).mpr ?_⟩
  simp only [List.nil_append, List.forall_mem_append, List.forall_mem_singleton]
  refine ⟨trivial, fun hn => absurd hn ?_⟩
  show r.1 ∉ (Window.empty.request r).entries
  rw [Window.entries_request, Finset.mem_union, List.mem_toFinset]
  exact not_or.mpr ⟨Finset.notMem_erase _ _, ho⟩

/-- Packet 2, guessed with packet 1. -/
theorem not_fetching_one : ∃ tr s, Run (ReceiverStep textLibs) ⟨.init, [], []⟩ tr s ∧ ¬ Fetching s :=
  not_fetching_afterPre textLibs_lawful ⟨1, 2, 3, 4⟩ (by decide : 1 + 1 < 2 ^ 31)

end IpNdn
