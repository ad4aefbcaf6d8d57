import IpNdnStack.Framework.Halves
import IpNdnStack.Framework.Run
import IpNdnStack.Impl.Node
import IpNdnStack.Proof.Capture

/-!
# A gateway process in any network

What each callback can do is said once (`Callback`): it asks for Interests of
its own registered addresses, as many as its filter allows, ends with a fault or
not as the name it is given says, and does all this whatever the publisher's half of the
gateway is. What `handleRead` can do is said by `exists_handleRead`: it ends with
a fault just when bytes are read from `nullptr`.
-/

namespace IpNdn

open Handler

/-! ## What a callback can do -/

def SentInterest.call (i : SentInterest) : FaceCall := .expressInterest i.name i.isPre i.isTCP

/-- The address that the Data for an Interest will be handed on to. -/
def SentInterest.GoesTo (L : Libs) (i : SentInterest) (ip : Text) : Prop :=
  (L.components (L.ofUri i.name))[if i.isTCP then 3 else 2]? = some ip

/-- A formal Interest that brings packets for a registered address. -/
def SentInterest.Registered (L : Libs) (registerIp : List Text) (i : SentInterest) : Prop :=
  i.isPre = false ∧ ∃ ip ∈ registerIp, i.GoesTo L ip

/-- The gateway with this table, after these Interests. -/
def Gateway.asked (g : Gateway) (p : SetHelper Text × List SentInterest) : Gateway :=
  { g with prefixGuestTable := p.1, face := g.face ++ p.2.map SentInterest.call }

/-- A handler's end. -/
def ended : Option Fault → Gateway → EStateM.Result Fault Gateway Unit
  | none, g => .ok ⟨⟩ g
  | some e, g => .error e g

theorem after_of_ended {x : GatewayM Unit} {fault : Option Fault} {g g' : Gateway} (h : x g = ended fault g') :
    after x g = g' := by
  cases fault with
  | none => exact after_of_ok h
  | some _ => exact after_of_error h

/-- A callback that asks for at most `n` Interests, all of them for registered
addresses, and that ends without a fault just when `ok`. What it does depends on
the table of guesses alone. -/
def Callback (L : Libs) (registerIp : List Text) (n : Nat) (ok : Prop) (x : GatewayM Unit) : Prop :=
  ∃ (fault : Option Fault) (ask : SetHelper Text → SetHelper Text × List SentInterest),
    (∀ g : Gateway, x g = ended fault (g.asked (ask g.prefixGuestTable))) ∧
      (∀ table, (ask table).2.length ≤ n ∧ ∀ i ∈ (ask table).2, i.Registered L registerIp) ∧
      (fault = none ↔ ok)

section

variable {L : Libs} {registerIp : List Text} {n m : Nat} {p q : Prop} {x y : GatewayM Unit}

theorem Gateway.asked_nil (g : Gateway) : g.asked (g.prefixGuestTable, []) = g := by
  simp only [asked, List.map_nil, List.append_nil]

theorem Gateway.asked_asked (g : Gateway) (a b : SetHelper Text × List SentInterest) :
    (g.asked a).asked b = g.asked (b.1, a.2 ++ b.2) := by
  simp only [asked, List.map_append, List.append_assoc]

theorem Callback.pure : Callback L registerIp 0 True (pure ()) := by
  refine ⟨none, fun table => (table, []), fun g => ?_, fun _ => ⟨Nat.le_refl _, nofun⟩, by simp⟩
  rw [Gateway.asked_nil]
  rfl

theorem Callback.fault {e : Fault} (h : ∀ g, x g = .error e g) : Callback L registerIp 0 False x := by
  refine ⟨some e, fun table => (table, []), fun g => ?_, fun _ => ⟨Nat.le_refl _, nofun⟩, by simp⟩
  rw [Gateway.asked_nil, h]
  rfl

theorem Callback.mono (h : Callback L registerIp n p x) (hn : n ≤ m) (hp : p ↔ q) : Callback L registerIp m q x := by
  obtain ⟨fault, ask, hx, ha, hf⟩ := h
  exact ⟨fault, ask, hx, fun table => ⟨(ha table).1.trans hn, (ha table).2⟩, hf.trans hp⟩

/-- One callback after another, if the first has not ended with a fault. -/
theorem Callback.seq (hx : Callback L registerIp n p x) (hy : Callback L registerIp m q y) :
    Callback L registerIp (n + m) (p ∧ q) (do x; y) := by
  obtain ⟨fault, ask, hx, ha, hf⟩ := hx
  obtain ⟨fault', ask', hy, ha', hf'⟩ := hy
  cases fault with
  | some e =>
    refine ⟨some e, ask, fun g => bind_of_error (hx g), fun table => ⟨?_, (ha table).2⟩, ?_⟩
    · exact (ha table).1.trans (Nat.le_add_right _ _)
    · simp [← hf]
  | none =>
    refine ⟨fault', fun table => ((ask' (ask table).1).1, (ask table).2 ++ (ask' (ask table).1).2), fun g => ?_,
      fun table => ⟨?_, ?_⟩, ?_⟩
    · rw [bind_of_ok (hx g), hy, Gateway.asked_asked]
      rfl
    · have := (ha table).1
      have := (ha' (ask table).1).1
      rw [List.length_append]
      omega
    · rw [List.forall_mem_append]
      exact ⟨(ha table).2, (ha' _).2⟩
    · simp [← hf, ← hf']

/-- Callbacks one after another. -/
theorem Callback.forM {α : Type} {f : α → GatewayM Unit} {k : α → Nat} {ok : α → Prop} (as : List α)
    (h : ∀ a ∈ as, Callback L registerIp (k a) (ok a) (f a)) :
    Callback L registerIp (as.map k).sum (∀ a ∈ as, ok a) (forM as f) := by
  induction as with
  | nil => exact Callback.pure.mono (Nat.zero_le _) (by simp)
  | cons a as ih =>
    rw [List.forall_mem_cons] at h
    rw [List.forM_cons]
    exact (h.1.seq (ih h.2)).mono (by simp) (by simp)

/-! ## Interests for a component -/

/-- Names with an address among their components. -/
theorem goesTo_of_take (hE : L.Escapes) (interest : L.Name) {cs : List Text} {rest ip : Text} {isTCP : Bool}
    (hc : ∀ c ∈ cs, c ∈ L.components interest) (hr : '/' ∉ rest) (hi : cs[if isTCP then 3 else 2]? = some ip)
    (isPre : Bool) : SentInterest.GoesTo L ⟨uriOf cs ++ '/' :: rest, isPre, isTCP⟩ ip := by
  have ht := hE.take_ofUri cs rest (fun c h => ⟨interest, hc c h⟩) hr
  obtain ⟨hlt, -⟩ := List.getElem?_eq_some_iff.mp hi
  rw [SentInterest.GoesTo, ← List.getElem?_take_of_lt hlt, ht]
  exact hi

theorem guessPrefix_uriOf (dip sip : Text) : guessPrefix dip sip = uriOf [cIP, cTCP, dip, sip] := by
  have h (t : Text) : t ++ uriOf [dip, sip] = t ++ '/' :: dip ++ '/' :: sip := by
    simp only [uriOf, List.flatMap_cons, List.flatMap_nil, List.append_assoc, List.cons_append, List.append_nil]
  have h' := uriOf_append [cIP, cTCP] [dip, sip]
  rw [← prefixes_eq.2.2.2, h] at h'
  exact h'.symm

/-- A uid whose third field is an integer. -/
def CountedUid (L : Libs) (uid : Text) : Prop := ∃ c, (uid.splitOn '-')[2]? = some c ∧ L.lexicalCast c ≠ none

/-- A gateway after a request of the window. -/
theorem withWindow_eq_asked (g : Gateway) (w : Window Text) :
    g.withWindow w = g.asked (⟨w.entries⟩, w.expressed.map (⟨·, false, true⟩)) := by
  rw [Gateway.withWindow, Gateway.asked, List.map_map]
  rfl

theorem Callback.request (fault : Option Fault) {name : Text} (gs : List Text)
    (h : ∀ g : Gateway, x g = ended fault (g.withWindow (Window.request ⟨g.prefixGuestTable.s, []⟩ (name, gs))))
    (hl : gs.length ≤ NUM_OF_GUEST)
    (hr : ∀ a ∈ name :: gs, SentInterest.Registered L registerIp ⟨a, false, true⟩) :
    Callback L registerIp (NUM_OF_GUEST + 1) (fault = none) x := by
  refine ⟨fault, fun table => (⟨(Window.request ⟨table.s, []⟩ (name, gs)).entries⟩,
    (Window.request ⟨table.s, []⟩ (name, gs)).expressed.map (⟨·, false, true⟩)), fun g => ?_, fun table => ⟨?_, ?_⟩,
    Iff.rfl⟩
  · rw [h, withWindow_eq_asked]
  · have := Window.length_expressed_request ⟨table.s, []⟩ (name, gs)
    rw [List.length_map]
    simp only [List.length_nil] at this
    omega
  · intro i hi
    obtain ⟨a, ha, rfl⟩ := List.mem_map.mp hi
    rcases Window.mem_of_mem_expressed_request ha with ha | ha
    · cases ha
    · exact hr a (List.mem_cons.mpr ha)

theorem exists_field {ps : List Text} {i : Nat} (h : i < ps.length) : ∃ p, ps[i]? = some p :=
  ⟨ps[i], List.getElem?_eq_getElem h⟩

theorem take_two {ps : List Text} {a b : Text} (h0 : ps[0]? = some a) (h1 : ps[1]? = some b) : ps.take 2 = [a, b] := by
  rw [List.take_add_one, List.take_add_one, h0, h1]
  rfl

/-- A guess is the prefix, then a uid of the same ports. -/
theorem mem_guessNames {guessName a b x : Text} {n : BitVec 32} {k : Nat} (ha : '/' ∉ a) (hb : '/' ∉ b) (ha' : '-' ∉ a)
    (hb' : '-' ∉ b) (hx : x ∈ guessNames (guessName ++ '/' :: a ++ '-' :: b ++ ['-']) n k) :
    ∃ rest, '/' ∉ rest ∧ (rest.splitOn '-').take 2 = [a, b] ∧ x = guessName ++ '/' :: rest := by
  obtain ⟨i, -, rfl⟩ := List.mem_map.mp hx
  have hint : ∀ z, '/' ∉ intText z := fun z => by
    unfold intText
    split <;> simp [notMem_natText]
  refine ⟨a ++ '-' :: b ++ '-' :: intText (n + BitVec.ofNat 32 (i + 1)).toInt, ?_, ?_, ?_⟩
  · simp [ha, hb, hint]
  · rw [splitOn_uid ha' hb']
    rfl
  · simp

/-- What follows the formal Interest guesses, and faults where the uid has no
third field that is an integer. -/
theorem guessFrom_guesses (hL : L.Lawful) {uid : Text} (hu : '/' ∉ uid) (guessName : Text) :
    ∃ (fault : Option Fault) (gs : List Text), (∀ (g : Gateway) w, guessFrom L guessName uid (g.withWindow w) =
        ended fault (g.withWindow (gs.foldl Window.guess w))) ∧ gs.length ≤ NUM_OF_GUEST ∧
      (∀ a ∈ gs, ∃ rest, '/' ∉ rest ∧ (rest.splitOn '-').take 2 = (uid.splitOn '-').take 2 ∧
        a = guessName ++ '/' :: rest) ∧ (fault = none ↔ CountedUid L uid) := by
  have hs := hL.split_eq uid '-'
  by_cases hl : (L.split uid '-').length < 3
  · refine ⟨some .outOfRange, [], fun g w => guessFrom_short hl guessName _, Nat.zero_le _,
      fun _ h => absurd h List.not_mem_nil, nofun, fun ⟨c, hc, _⟩ => ?_⟩
    rw [← hs, List.getElem?_eq_none (by omega)] at hc
    cases hc
  obtain ⟨a, h0⟩ := exists_field (show 0 < (L.split uid '-').length by omega)
  obtain ⟨b, h1⟩ := exists_field (show 1 < (L.split uid '-').length by omega)
  obtain ⟨c, h2⟩ := exists_field (show 2 < (L.split uid '-').length by omega)
  rcases hc : L.lexicalCast c with _ | n
  · refine ⟨some .badLexicalCast, [], fun g w => guessFrom_badCast h2 hc guessName _, Nat.zero_le _,
      fun _ h => absurd h List.not_mem_nil, nofun, fun ⟨d, hd, hn⟩ => absurd ?_ hn⟩
    rw [← hs, h2] at hd
    cases hd
    exact hc
  · refine ⟨none, _, guessFrom_ok h0 h1 h2 hc, ?_, fun x hx => ?_, fun _ => ⟨c, hs ▸ h2, by simp [hc]⟩, fun _ => rfl⟩
    · simp [guessNames]
    · rw [hs] at h0 h1
      have slash {p : Text} (hp : p ∈ uid.splitOn '-') : '/' ∉ p := fun hm => hu (Separated.mem_of_mem_splitOn hp hm)
      have minus {p : Text} (hp : p ∈ uid.splitOn '-') : '-' ∉ p := Separated.notMem_of_mem_splitOn '-' uid p hp
      have ha := List.mem_of_getElem? h0
      have hb := List.mem_of_getElem? h1
      rw [take_two h0 h1]
      exact mem_guessNames (slash ha) (slash hb) (minus ha) (minus hb) hx

/-- However it ends, a TCP or UDP pre-request is a request of the window, for
packets of one flow. -/
theorem dealOnTcpPreRequest_request (hL : L.Lawful) {name sip dip uid : Text}
    (h4 : (L.split name '/')[4]? = some sip) (h5 : (L.split name '/')[5]? = some dip)
    (h6 : (L.split name '/')[6]? = some uid) (hu : '/' ∉ uid) :
    ∃ (fault : Option Fault) (gs : List Text), (∀ g : Gateway, dealOnTcpPreRequest L name g = ended fault
        (g.withWindow (Window.request ⟨g.prefixGuestTable.s, []⟩ (guessPrefix dip sip ++ '/' :: uid, gs)))) ∧
      gs.length ≤ NUM_OF_GUEST ∧
      (∀ a ∈ gs, ∃ rest, '/' ∉ rest ∧ (rest.splitOn '-').take 2 = (uid.splitOn '-').take 2 ∧
        a = guessPrefix dip sip ++ '/' :: rest) ∧ (fault = none ↔ CountedUid L uid) := by
  obtain ⟨fault, gs, hx, hgs⟩ := guessFrom_guesses hL hu (guessPrefix dip sip)
  refine ⟨fault, gs, fun g => ?_, hgs⟩
  rw [dealOnTcpPreRequest_formal h4 h5 h6, Window.request, ← hx, ← Gateway.formal_withWindow, Gateway.withWindow_self]

/-- The names that a TCP or UDP pre-request for `ip` makes the gateway ask for. -/
theorem registered_guessPrefix (hE : L.Escapes) {interest : L.Name} {ip dip rest : Text}
    (hip : ip ∈ registerIp) (hm : [cIP, cTCP, cPre, ip] <+: L.components interest) (hd : dip ∈ L.components interest)
    (hr : '/' ∉ rest) : SentInterest.Registered L registerIp ⟨guessPrefix dip ip ++ '/' :: rest, false, true⟩ := by
  have hc : ∀ c ∈ [cIP, cTCP, cPre, ip], c ∈ L.components interest := fun c h => hm.subset h
  refine ⟨rfl, ip, hip, ?_⟩
  rw [guessPrefix_uriOf]
  apply goesTo_of_take hE interest _ hr rfl
  simp only [List.forall_mem_cons] at hc ⊢
  exact ⟨hc.1, hc.2.1, hd, hc.2.2.2.1, fun _ h => absurd h List.not_mem_nil⟩

theorem callback_tcp (hL : L.Lawful) (hE : L.Escapes) {interest : L.Name} {ip : Text} (hip : ip ∈ registerIp)
    (hm : [cIP, cTCP, cPre, ip] <+: L.components interest) :
    Callback L registerIp (NUM_OF_GUEST + 1)
      (∃ uid, (L.components interest)[5]? = some uid ∧ CountedUid L uid)
      (dealOnTcpPreRequest L (L.toUri interest)) := by
  have hne : L.components interest ≠ [] := fun e => by
    rw [e] at hm
    cases List.prefix_nil.mp hm
  have hs := hL.split_toUri hne
  by_cases hl : 6 ≤ (L.components interest).length
  · obtain ⟨dip, h4⟩ := exists_field (show 4 < (L.components interest).length by omega)
    obtain ⟨uid, h5⟩ := exists_field (show 5 < (L.components interest).length by omega)
    have h3 : (L.components interest)[3]? = some ip := by
      obtain ⟨l, e⟩ := hm
      rw [← e]
      rfl
    have hf : ∀ {i x}, (L.components interest)[i]? = some x → (L.split (L.toUri interest) '/')[i + 1]? = some x :=
      fun h => by rw [hs, List.getElem?_cons_succ, h]
    have hu : '/' ∉ uid := hL.slash_notMem _ _ (List.mem_of_getElem? h5)
    have hreg (rest : Text) (h : '/' ∉ rest) := registered_guessPrefix hE hip hm (List.mem_of_getElem? h4) h
    obtain ⟨fault, gs, hx, hlen, hgs, hc⟩ := dealOnTcpPreRequest_request hL (hf h3) (hf h4) (hf h5) hu
    refine (Callback.request fault gs hx hlen ?_).mono (Nat.le_refl _) (hc.trans (by simp [h5]))
    rw [List.forall_mem_cons]
    refine ⟨hreg uid hu, fun a ha => ?_⟩
    obtain ⟨rest, hr, -, rfl⟩ := hgs a ha
    exact hreg rest hr
  · have hs' : (L.split (L.toUri interest) '/').length < 7 := by
      rw [hs, List.length_cons]
      omega
    refine (Callback.fault fun g => dealOnTcpPreRequest_short hs' g).mono (Nat.zero_le _) ⟨False.elim, fun h => ?_⟩
    obtain ⟨uid, hu, -⟩ := h
    rw [List.getElem?_eq_none (by omega)] at hu
    cases hu

theorem callback_other (hL : L.Lawful) (hE : L.Escapes) {interest : L.Name} {ip : Text} (hip : ip ∈ registerIp)
    (hm : [cIP, cPre, ip] <+: L.components interest) :
    Callback L registerIp 1 (5 ≤ (L.components interest).length) (dealOnOtherPreRequest L (L.toUri interest)) := by
  have hne : L.components interest ≠ [] := fun e => by
    rw [e] at hm
    cases List.prefix_nil.mp hm
  have hs := hL.split_toUri hne
  by_cases hl : 5 ≤ (L.components interest).length
  · obtain ⟨dip, h3⟩ := exists_field (show 3 < (L.components interest).length by omega)
    obtain ⟨uid, h4⟩ := exists_field (show 4 < (L.components interest).length by omega)
    have h2 : (L.components interest)[2]? = some ip := by
      obtain ⟨l, e⟩ := hm
      rw [← e]
      rfl
    have hf : ∀ {i x}, (L.components interest)[i]? = some x → (L.split (L.toUri interest) '/')[i + 1]? = some x :=
      fun h => by rw [hs, List.getElem?_cons_succ, h]
    have hname : "/IP".toList ++ '/' :: dip ++ '/' :: ip ++ '/' :: uid = uriOf [cIP, dip, ip] ++ '/' :: uid := by
      simp [uriOf, cIP]
    have hx := dealOnOtherPreRequest_ok (hf h2) (hf h3) (hf h4)
    rw [hname] at hx
    refine ⟨none, fun table => (table, [⟨uriOf [cIP, dip, ip] ++ '/' :: uid, false, false⟩]), hx,
      fun _ => ⟨Nat.le_refl _, ?_⟩, by simp [hl]⟩
    rw [List.forall_mem_singleton]
    have hc : ∀ c ∈ [cIP, cPre, ip], c ∈ L.components interest := fun c h => hm.subset h
    refine ⟨rfl, ip, hip, goesTo_of_take hE interest ?_ (hL.slash_notMem _ _ (List.mem_of_getElem? h4)) rfl false⟩
    simp only [List.forall_mem_cons] at hc ⊢
    exact ⟨hc.1, List.mem_of_getElem? h3, hc.2.2.1, fun _ h => absurd h List.not_mem_nil⟩
  · have hs' : (L.split (L.toUri interest) '/').length < 6 := by
      rw [hs, List.length_cons]
      omega
    exact (Callback.fault fun g => dealOnOtherPreRequest_short hs' g).mono (Nat.zero_le _) (by simp [hl])

/-! ## An Interest arrives -/

/-- The components of a pre-request that is handled to the end. -/
def Handled (L : Libs) (isTCP : Bool) (cs : List Text) : Prop :=
  if isTCP then ∃ uid, cs[5]? = some uid ∧ CountedUid L uid else 5 ≤ cs.length

/-- An Interest that no callback faults on. -/
def Readable (L : Libs) (registerIp : List Text) (interest : L.Name) : Prop :=
  ∀ f ∈ start L registerIp, L.isPrefixOf f.registerPrefix interest → f.isPre →
    Handled L f.isTCP (L.components interest)

theorem callback_onInterest (hL : L.Lawful) (hE : L.Escapes) (hip : ∀ ip ∈ registerIp, PlainComponent ip)
    {f : InterestFilter L} (hf : f ∈ start L registerIp) {interest : L.Name}
    (hm : L.isPrefixOf f.registerPrefix interest) :
    Callback L registerIp (if f.isPre then NUM_OF_GUEST + 1 else 0)
      (f.isPre → Handled L f.isTCP (L.components interest)) (onInterest L interest f.isPre f.isTCP) := by
  rw [start_eq] at hf
  obtain ⟨ip, hi, hf⟩ := List.mem_flatMap.mp hf
  obtain ⟨e1, -, e3, -⟩ := components_filters hL (hip ip hi)
  have silent : Callback L registerIp 0 (False → Handled L f.isTCP (L.components interest)) (pure ()) :=
    Callback.pure.mono (Nat.le_refl _) (by simp)
  simp only [filters, List.mem_cons, List.not_mem_nil, or_false] at hf
  rw [Libs.isPrefixOf, List.isPrefixOf_iff_prefix] at hm
  rcases hf with rfl | rfl | rfl | rfl
  · rw [e1] at hm
    exact (callback_other hL hE hi hm).mono (show 1 ≤ NUM_OF_GUEST + 1 by decide) (by simp [Handled])
  · exact silent.mono (Nat.le_refl _) (by simp)
  · rw [e3] at hm
    exact (callback_tcp hL hE hi hm).mono (Nat.le_refl _) (by simp [Handled])
  · exact silent.mono (Nat.le_refl _) (by simp)

/-- The address that a pre-request is for. -/
def preAddress (cs : List Text) : Option Text := if cs[1]? = some cPre then cs[2]? else cs[3]?

theorem preAddress_of_pre {cs : List Text} {ip : Text} (h : [cIP, cPre, ip] <+: cs) :
    cs[1]? = some cPre ∧ preAddress cs = some ip := by
  obtain ⟨l, rfl⟩ := h
  exact ⟨rfl, if_pos rfl⟩

theorem preAddress_of_tcpPre {cs : List Text} {ip : Text} (h : [cIP, cTCP, cPre, ip] <+: cs) :
    cs[1]? = some cTCP ∧ preAddress cs = some ip := by
  obtain ⟨l, rfl⟩ := h
  exact ⟨rfl, if_neg fun e => absurd (Option.some.inj e : cTCP = cPre) (by decide)⟩

/-- Of the filters for an address, at most one for pre-requests matches a name,
and only a pre-request for the address. -/
theorem countP_filters_le (hL : L.Lawful) {ip : Text} (h : PlainComponent ip) (interest : L.Name) :
    (filters L ip).countP (fun f => f.isPre && L.isPrefixOf f.registerPrefix interest) ≤
      if preAddress (L.components interest) = some ip then 1 else 0 := by
  obtain ⟨e1, -, e3, -⟩ := components_filters hL h
  simp only [filters, Libs.isPrefixOf, List.countP_cons, List.countP_nil, e1, e3, Bool.false_and, Bool.true_and,
    List.isPrefixOf_iff_prefix]
  have hpt : cTCP ≠ cPre := by decide
  by_cases h1 : [cIP, cPre, ip] <+: L.components interest
  · obtain ⟨h1', ha⟩ := preAddress_of_pre h1
    have h3 : ¬ [cIP, cTCP, cPre, ip] <+: L.components interest := fun h3 =>
      hpt (Option.some.inj ((preAddress_of_tcpPre h3).1.symm.trans h1'))
    simp [h1, h3, ha]
  · by_cases h3 : [cIP, cTCP, cPre, ip] <+: L.components interest
    · simp [h1, h3, (preAddress_of_tcpPre h3).2]
    · simp [h1, h3]

/-- A name matches at most one filter for pre-requests. -/
theorem countP_pre_le (hL : L.Lawful) (hip : ∀ ip ∈ registerIp, PlainComponent ip) (hnd : registerIp.Nodup)
    (interest : L.Name) :
    (start L registerIp).countP (fun f => f.isPre && L.isPrefixOf f.registerPrefix interest) ≤ 1 := by
  have hall : (start L registerIp).countP (fun f => f.isPre && L.isPrefixOf f.registerPrefix interest) ≤
      registerIp.countP fun ip => preAddress (L.components interest) = some ip := by
    rw [start_eq]
    clear hnd
    induction registerIp with
    | nil => exact Nat.le_refl _
    | cons ip ips ih =>
      rw [List.forall_mem_cons] at hip
      have := countP_filters_le hL hip.1 interest
      have := ih hip.2
      rw [List.flatMap_cons, List.countP_append, List.countP_cons]
      simp only [decide_eq_true_eq]
      omega
  refine hall.trans ?_
  rcases preAddress (L.components interest) with _ | a
  · simp
  · have e : (registerIp.countP fun ip => some a = some ip) = registerIp.count a := by
      rw [List.count]
      apply List.countP_congr
      intro ip _
      rw [beq_iff_eq, decide_eq_true_eq, Option.some.injEq]
      exact eq_comm
    rw [e]
    exact List.nodup_iff_count_le_one.mp hnd a

theorem sum_map_ite {α : Type} (p : α → Bool) (k : Nat) (l : List α) :
    (l.map fun a => if p a then k else 0).sum = k * l.countP p := by
  induction l with
  | nil => rfl
  | cons a l ih =>
    rw [List.map_cons, List.sum_cons, List.countP_cons, ih, Nat.mul_add, Nat.add_comm]
    split <;> simp

theorem callback_processInterest (hL : L.Lawful) (hE : L.Escapes) (hip : ∀ ip ∈ registerIp, PlainComponent ip)
    (interest : L.Name) :
    Callback L registerIp
      ((NUM_OF_GUEST + 1) * (start L registerIp).countP fun f => f.isPre && L.isPrefixOf f.registerPrefix interest)
      (Readable L registerIp interest) (processInterest L registerIp interest) := by
  have h := Callback.forM ((start L registerIp).filter fun f => L.isPrefixOf f.registerPrefix interest) fun f hf =>
    callback_onInterest hL hE hip (List.mem_filter.mp hf).1 (List.mem_filter.mp hf).2
  refine h.mono ?_ ?_
  · rw [sum_map_ite, List.countP_filter]
  · simp only [Readable, List.mem_filter, and_imp]

/-! ## Data arrives -/

/-- The Data for a formal Interest goes to the Interest's address, whatever
follows the Interest's name in the Data's. -/
theorem onData_goesTo (hL : L.Lawful) {i : SentInterest} {ip : Text} (hi : i.GoesTo L ip) {name : L.Name}
    (hn : L.isPrefixOf (L.ofUri i.name) name) (content : List Byte) (g : Gateway) :
    onData L name content false i.isTCP g = .ok ⟨⟩ { g with rawSocket := g.rawSocket ++ [(content, ip)] } := by
  rw [Libs.isPrefixOf, List.isPrefixOf_iff_prefix] at hn
  have hc : (L.components name)[if i.isTCP then 3 else 2]? = some ip := by
    obtain ⟨l, e⟩ := hn
    obtain ⟨hlt, -⟩ := List.getElem?_eq_some_iff.mp hi
    rw [← e, List.getElem?_append_left hlt]
    exact hi
  have hne : L.components name ≠ [] := fun e => by
    rw [e] at hc
    cases hc
  apply dealOnData_ok
  rw [hL.split_toUri hne]
  cases ht : i.isTCP <;> rw [ht] at hc <;> exact hc

/-- A callback for Data reads nothing of the gateway. -/
theorem exists_after_onData (name : L.Name) (content : List Byte) (isPre isTCP : Bool) :
    ∃ sent, ∀ g, after (onData L name content isPre isTCP) g = { g with rawSocket := g.rawSocket ++ sent } := by
  cases isPre with
  | true => exact ⟨[], fun g => by simp [onData, dealOnData, after]⟩
  | false =>
    rcases hf : (L.split (L.toUri name) '/')[if isTCP then 4 else 3]? with _ | ip
    · refine ⟨[], fun g => ?_⟩
      rw [List.append_nil]
      apply after_of_error (e := .outOfRange)
      cases isTCP <;> exact bind_of_error (fieldAt_of_none hf g)
    · exact ⟨[(content, ip)], fun g => after_of_ok (dealOnData_ok hf content g)⟩

end

/-! ## A frame is captured -/

/-- A call of the publisher's half. -/
def FaceCall.publishes : FaceCall → Bool
  | .putDataToCache .. => true
  | .expressInterest _ isPre _ => isPre

/-- The gateway with this table and these globals, after these calls. -/
def Gateway.captured (g : Gateway) (p : MapCacheHelper (BitVec 32) × Globals × List FaceCall) : Gateway :=
  { g with sequenceTable := p.1, globals := p.2.1, face := g.face ++ p.2.2 }

/-- `deal` calls the face for the publisher's half only, and ends with a fault just
where the tuple's bytes are read from `nullptr`. -/
theorem exists_deal (t : Tuple) (uuid : Text) :
    ∃ F : MapCacheHelper (BitVec 32) → MapCacheHelper (BitVec 32) × List FaceCall,
      (∀ g, deal t uuid g = ended (if t.HasBytes then none else some .nullRead)
        { g with sequenceTable := (F g.sequenceTable).1, face := g.face ++ (F g.sequenceTable).2 }) ∧
        ∀ m, ∀ c ∈ (F m).2, c.publishes := by
  by_cases hb : t.HasBytes
  · simp only [if_pos hb]
    by_cases ht : t.Numbered
    · refine ⟨fun m => (⟨Function.update m.ipPacketCache t.flow.key (some (nextNumber m t.flow))⟩,
        numberedCalls t (nextNumber m t.flow)), fun g => deal_next ht hb uuid g, fun m => ?_⟩
      simp [numberedCalls, FaceCall.publishes]
    · exact ⟨fun m => (m, otherCalls t uuid), fun g => deal_other uuid g ht hb, fun m => by
        simp [otherCalls, FaceCall.publishes]⟩
  · simp only [if_neg hb]
    by_cases ht : t.Numbered
    · refine ⟨fun m => (⟨Function.update m.ipPacketCache t.flow.key (some (nextNumber m t.flow))⟩, []), fun g => ?_,
        fun _ _ h => absurd h List.not_mem_nil⟩
      rw [deal_eq ht, publish_nullRead _ _ hb, List.append_nil]
      rfl
    · refine ⟨fun m => (m, []), fun g => ?_, fun _ _ h => absurd h List.not_mem_nil⟩
      rw [deal_other_eq ht, publish_nullRead _ _ hb, List.append_nil]
      rfl

/-- `handleRead` calls the face for the publisher's half only, unless bytes are
read from `nullptr`: then it ends with a fault. -/
theorem exists_handleRead (error : Bool) (next : PcapNext) (now : Int) (uuid : Text) :
    ∃ F : MapCacheHelper (BitVec 32) × Globals → MapCacheHelper (BitVec 32) × Globals × List FaceCall,
      (∀ g, handleRead error next now uuid g =
        ended (if error = false ∧ next.ReadsNull then some .nullRead else none)
          (g.captured (F (g.sequenceTable, g.globals)))) ∧
        ∀ p, ∀ c ∈ (F p).2.2, c.publishes := by
  have silent {fault : Option Fault} (h : fault = none) :
      ∃ F : MapCacheHelper (BitVec 32) × Globals → MapCacheHelper (BitVec 32) × Globals × List FaceCall,
        (∀ g : Gateway, ended none g = ended fault (g.captured (F (g.sequenceTable, g.globals)))) ∧
          ∀ p, ∀ c ∈ (F p).2.2, c.publishes :=
    ⟨fun p => (p.1, p.2, []), fun g => by simp [Gateway.captured, h], fun _ _ h => absurd h List.not_mem_nil⟩
  cases error with
  | true => exact silent (by simp)
  | false =>
    cases next with
    | error | timedOut => exact silent (by simp [PcapNext.ReadsNull])
    | packet frame =>
      by_cases hn : frame.ReadsNull
      · refine ⟨fun p => (p.1, (decodeFrame frame now p.2).2.2, []), fun g => ?_,
          fun _ _ h => absurd h List.not_mem_nil⟩
        rw [if_pos ⟨rfl, hn⟩, handleRead_nullRead hn]
        simp [Gateway.captured, Gateway.decoded, ended]
      · choose D hD hpub using fun t => exists_deal t uuid
        refine ⟨fun p =>
          let d := decodeFrame frame now p.2
          if d.2.1.ipSize < 8600 then ((D d.2.1 p.1).1, d.2.2, (D d.2.1 p.1).2) else (p.1, d.2.2, []),
          fun g => ?_, fun p => ?_⟩
        · rw [if_neg fun h => hn h.2]
          by_cases hs : (decodeFrame frame now g.globals).2.1.ipSize < 8600
          · rw [handleRead_short hs, hD, if_pos (hasBytes_of_not_readsNull hn hs)]
            simp [Gateway.captured, Gateway.decoded, hs]
          · rw [handleRead_long hs]
            simp [Gateway.captured, Gateway.decoded, hs, ended]
        · dsimp only
          split
          · exact hpub _ _
          · exact fun _ h => absurd h List.not_mem_nil

/-! ## Runs -/

namespace Node

variable {L : Libs} {registerIp : List Text} {s s' : Node} {e : Event L} {tr : List (Node × Event L)}

/-- Every formal Interest that waits for Data is for a registered address. -/
def Sound (L : Libs) (registerIp : List Text) (s : Node) : Prop :=
  ∀ i ∈ s.pending, i.isPre = false → i.Registered L registerIp

theorem sentInterests_map_call (is : List SentInterest) : sentInterests (is.map SentInterest.call) = is := by
  rw [sentInterests, List.filterMap_map]
  exact List.filterMap_some

/-- What is sent out by the publisher's half. -/
theorem isPre_of_publishes {calls : List FaceCall} (h : ∀ c ∈ calls, c.publishes) :
    ∀ i ∈ sentInterests calls, i.isPre := by
  intro i hi
  obtain ⟨c, hc, e⟩ := List.mem_filterMap.mp hi
  have := h c hc
  cases c <;> cases e
  exact this

theorem run_ended (fault : Option Fault) {handler : GatewayM Unit} {g : Gateway} {calls : List FaceCall}
    (h : handler s.gateway = ended fault g) (hf : g.face = s.gateway.face ++ calls) :
    s.run handler = ⟨g, s.pending ++ sentInterests calls, fault.isSome || s.crashed⟩ := by
  cases fault with
  | none => simp only [run, after_of_ok h, hf, List.drop_left, h, ended, Option.isSome_none, Bool.false_or]
  | some e => simp only [run, after_of_error h, hf, List.drop_left, h, ended, Option.isSome_some, Bool.true_or]

/-- A handler that calls no face, for an Interest that is no longer pending. -/
theorem run_unpend {handler : GatewayM Unit} {g : Gateway} (h : handler s.gateway = .ok ⟨⟩ g)
    (hf : g.face = s.gateway.face) (hc : s.crashed = false) (pending : List SentInterest) :
    { s with pending := pending }.run handler = ⟨g, pending, false⟩ := by
  simp [run, after_of_ok h, hf, h, hc, sentInterests]

/-- What a step does: it publishes, asks for Interests of registered addresses,
or takes an Interest off and hands on its Data. -/
inductive Transition (L : Libs) (registerIp : List Text) (s : Node) : Event L → Node → Prop
  | capture {error next now uuid g calls} (h : s.crashed = false)
      (hg : after (handleRead error next now uuid) s.gateway = g) (hr : g.rawSocket = s.gateway.rawSocket)
      (hc : ∀ i ∈ sentInterests calls, i.isPre) {crashed}
      (hn : crashed = false ↔ ¬ (error = false ∧ next.ReadsNull)) :
    Transition L registerIp s (.capture error next now uuid) ⟨g, s.pending ++ sentInterests calls, crashed⟩
  | interest {name g is} (h : s.crashed = false) (hg : after (processInterest L registerIp name) s.gateway = g)
      (hr : g.rawSocket = s.gateway.rawSocket)
      (hl : is.length ≤ (NUM_OF_GUEST + 1) *
        (IpNdn.start L registerIp).countP fun f => f.isPre && L.isPrefixOf f.registerPrefix name)
      (his : ∀ i ∈ is, i.Registered L registerIp) {crashed} (hc : crashed = false ↔ Readable L registerIp name) :
    Transition L registerIp s (.interest name) ⟨g, s.pending ++ is, crashed⟩
  | data {i name content ip} (h : s.crashed = false) (hi : i ∈ s.pending) (hp : i.isPre = false)
      (hip : ip ∈ registerIp) :
    Transition L registerIp s (.data i name content)
      ⟨{ s.gateway with rawSocket := s.gateway.rawSocket ++ [(content, ip)] }, s.pending.erase i, false⟩
  | preData {i name content} (h : s.crashed = false) (hi : i ∈ s.pending) (hp : i.isPre = true) :
    Transition L registerIp s (.data i name content) ⟨s.gateway, s.pending.erase i, false⟩
  | timeout {i} (h : s.crashed = false) (hi : i ∈ s.pending) :
    Transition L registerIp s (.timeout i) ⟨s.gateway, s.pending.erase i, false⟩
  | nack {i} (h : s.crashed = false) (hi : i ∈ s.pending) :
    Transition L registerIp s (.nack i) ⟨s.gateway, s.pending.erase i, false⟩

theorem Step.transition (hL : L.Lawful) (hE : L.Escapes) (hip : ∀ ip ∈ registerIp, PlainComponent ip)
    (hs : Sound L registerIp s) (h : Step L registerIp s e s') : Transition L registerIp s e s' := by
  cases h with
  | capture h error next now uuid =>
    obtain ⟨F, hF, hpub⟩ := exists_handleRead error next now uuid
    have e := run_ended (s := s) _ (hF s.gateway) rfl
    rw [handler, e, h, Bool.or_false]
    refine .capture h (after_of_ended (hF _)) rfl (isPre_of_publishes (hpub _)) ?_
    split <;> simp [*]
  | interest h name =>
    obtain ⟨fault, ask, hx, ha, hf⟩ := callback_processInterest hL hE hip name
    have e := run_ended (s := s) fault (hx s.gateway) rfl
    rw [handler, e, h, Bool.or_false, sentInterests_map_call]
    exact .interest h (after_of_ended (hx _)) rfl (ha _).1 (ha _).2 (by simp [← hf])
  | @data h i hi name hn content =>
    cases hp : i.isPre with
    | true =>
      have hx : onData L name content i.isPre i.isTCP s.gateway = .ok ⟨⟩ s.gateway := by
        rw [hp]
        rfl
      rw [handler, run_unpend hx rfl h]
      exact .preData h hi hp
    | false =>
      obtain ⟨-, ip, hr, hi'⟩ := hs i hi hp
      have hx := onData_goesTo hL hi' hn content s.gateway
      rw [← hp] at hx
      rw [handler, run_unpend hx rfl h]
      exact .data h hi hp hr
  | @timeout h i hi =>
    have hx : onTimeout i.isPre s.gateway = .ok ⟨⟩ s.gateway := by
      cases i.isPre <;> rfl
    rw [handler, run_unpend hx rfl h]
    exact .timeout h hi
  | @nack h i hi =>
    have hx : onNack s.gateway = .ok ⟨⟩ s.gateway := rfl
    rw [handler, run_unpend hx rfl h]
    exact .nack h hi

theorem Sound.step (hL : L.Lawful) (hE : L.Escapes) (hip : ∀ ip ∈ registerIp, PlainComponent ip)
    (hs : Sound L registerIp s) (h : Step L registerIp s e s') : Sound L registerIp s' := by
  intro j hj hp
  cases h.transition hL hE hip hs with
  | capture _ _ _ hc _ =>
    rcases List.mem_append.mp hj with hj | hj
    · exact hs j hj hp
    · rw [hc j hj] at hp
      cases hp
  | interest _ _ _ _ his _ =>
    rcases List.mem_append.mp hj with hj | hj
    · exact hs j hj hp
    · exact his j hj
  | data | preData | timeout | nack => exact hs j (List.mem_of_mem_erase hj) hp

theorem sound_start : Sound L registerIp start := fun _ h => absurd h List.not_mem_nil

theorem sound (hL : L.Lawful) (hE : L.Escapes) (hip : ∀ ip ∈ registerIp, PlainComponent ip)
    (h : Run (Step L registerIp) start tr s) : Sound L registerIp s :=
  h.invariant sound_start fun _ _ _ hs he => hs.step hL hE hip he

/-- What a step hands on to the raw socket. -/
def injected : Node × Event L → Option (List Byte)
  | (_, .data i _ content) => if i.isPre then none else some content
  | _ => none

/-- Whatever Interests and Data the network sends, the gateway injects the
contents of the Data for its formal Interests, in order and each once, and all
of them to registered addresses. -/
theorem injected_registered (hL : L.Lawful) (hE : L.Escapes) (hip : ∀ ip ∈ registerIp, PlainComponent ip)
    (h : Run (Step L registerIp) start tr s) :
    s.gateway.rawSocket.map (·.1) = tr.filterMap injected ∧ ∀ d ∈ s.gateway.rawSocket, d.2 ∈ registerIp := by
  induction h with
  | nil => exact ⟨rfl, fun _ h => absurd h List.not_mem_nil⟩
  | @snoc tr s e s' hr he ih =>
    obtain ⟨ih, ihr⟩ := ih
    rw [List.filterMap_append, ← ih]
    cases he.transition hL hE hip (sound hL hE hip hr) with
    | @data i name content ip _ _ hp hmem =>
      refine ⟨by simp [injected, hp], ?_⟩
      rw [List.forall_mem_append, List.forall_mem_singleton]
      exact ⟨ihr, hmem⟩
    | preData _ _ hp => exact ⟨by simp [injected, hp], ihr⟩
    | capture _ _ hraw _ _ | interest _ _ hraw _ _ _ =>
      rw [hraw]
      exact ⟨(List.append_nil _).symm, ihr⟩
    | timeout | nack => exact ⟨(List.append_nil _).symm, ihr⟩

/-- The addresses of a gateway for one host. -/
def oneHost : List Text := ["192.168.1.1".toList]

theorem plain_oneHost : ∀ ip ∈ oneHost, PlainComponent ip := fun _ h =>
  List.mem_singleton.mp h ▸ (plain_ipText 0x0101a8c0 : PlainComponent "192.168.1.1".toList)

/-- A run that begins with an Interest. -/
theorem run_interest (name : textLibs.Name) : Run (Step textLibs oneHost) start [(start, .interest name)]
    (start.run (handler textLibs oneHost (.interest name))) := .snoc .nil (.interest rfl name)

def otherPre : textLibs.Name := textLibs.ofUri "/IP/pre/192.168.1.1/192.168.1.4/a1".toList

/-- A pre-request, and Data of a longer name than was asked for. -/
theorem injected_registered_longer : ∃ tr s, Run (Step textLibs oneHost) start tr s ∧
    s.gateway.rawSocket.map (·.1) = [[1, 2, 3]] ∧ ∀ d ∈ s.gateway.rawSocket, d.2 ∈ oneHost := by
  have h := (run_interest otherPre).snoc (.data (i := ⟨"/IP/192.168.1.4/192.168.1.1/a1".toList, false, false⟩)
    (by decide +kernel) (by decide +kernel)
    (show textLibs.isPrefixOf _ (textLibs.ofUri "/IP/192.168.1.4/192.168.1.1/a1/0".toList) by decide) [1, 2, 3])
  have hr := injected_registered textLibs_lawful textLibs_escapes plain_oneHost h
  exact ⟨_, _, h, hr.1, hr.2⟩

/-! ### How much the network can make the gateway do -/

/-- The packets injected, and those that may be. -/
def load (s : Node) : Nat := s.gateway.rawSocket.length + s.pending.countP fun i => !i.isPre

def Event.isInterest : Event L → Bool
  | .interest _ => true
  | _ => false

def Event.isCapture : Event L → Bool
  | .capture .. => true
  | _ => false

theorem Step.load (hL : L.Lawful) (hE : L.Escapes) (hip : ∀ ip ∈ registerIp, PlainComponent ip)
    (hnd : registerIp.Nodup) (hs : Sound L registerIp s) (h : Step L registerIp s e s') :
    s'.load + 0 ≤ s.load + if e.isInterest then NUM_OF_GUEST + 1 else 0 := by
  have herase (i : SentInterest) :
      (s.pending.erase i).countP (fun i => !i.isPre) ≤ s.pending.countP fun i => !i.isPre :=
    List.erase_sublist.countP_le
  cases h.transition hL hE hip hs with
  | @capture _ _ _ _ g calls _ _ hraw hc _ _ =>
    have h0 : (sentInterests calls).countP (fun i => !i.isPre) = 0 :=
      List.countP_eq_zero.mpr fun i hi => by simp [hc i hi]
    simp only [Node.load, hraw, List.countP_append, h0]
    exact Nat.le_add_right _ _
  | @interest name g is _ _ hraw hl _ _ _ =>
    have hle : is.countP (fun i => !i.isPre) ≤ is.length := List.countP_le_length
    have h1 := countP_pre_le hL hip hnd name
    have hm := Nat.mul_le_mul_left (NUM_OF_GUEST + 1) h1
    simp only [Node.load, hraw, List.countP_append, Event.isInterest, if_true]
    omega
  | @data i _ _ _ _ hi hp _ =>
    have hlt : (s.pending.erase i).countP (fun i => !i.isPre) < s.pending.countP fun i => !i.isPre := by
      have := (List.perm_cons_erase hi).countP_eq fun i => !i.isPre
      simp [this, hp]
    simp only [Node.load, List.length_append, List.length_singleton]
    omega
  | @preData i | @timeout i | @nack i =>
    have := herase i
    simp only [Node.load]
    omega

/-- The network makes the gateway inject, and wait for, no more than
`NUM_OF_GUEST + 1` packets for each Interest that it sends. -/
theorem amplification (hL : L.Lawful) (hE : L.Escapes) (hip : ∀ ip ∈ registerIp, PlainComponent ip)
    (hnd : registerIp.Nodup) (h : Run (Step L registerIp) start tr s) :
    s.gateway.rawSocket.length + (s.pending.countP fun i => !i.isPre) ≤
      (NUM_OF_GUEST + 1) * tr.countP fun p => p.2.isInterest := by
  have := h.amortized (Sound L registerIp) Node.load (fun _ => 0)
    (fun e => if e.isInterest then NUM_OF_GUEST + 1 else 0) sound_start (fun _ _ _ hs he => hs.step hL hE hip he)
    fun _ _ _ hs he => he.load hL hE hip hnd hs
  have hz : (tr.map fun _ => 0).sum = 0 := by simp
  have h0 : start.load = 0 := rfl
  rw [hz, h0, Nat.zero_add, sum_map_ite (fun p : Node × Event L => p.2.isInterest)] at this
  exact this

def tcpPre : textLibs.Name := textLibs.ofUri "/IP/TCP/pre/192.168.1.1/192.168.1.4/80-443-7".toList

/-- One pre-request of a TCP flow has this effect in full. -/
theorem amplification_one : ∃ tr s, Run (Step textLibs oneHost) start tr s ∧
    (s.pending.countP fun i => !i.isPre) = 61 ∧
    s.gateway.rawSocket.length + (s.pending.countP fun i => !i.isPre) ≤
      (NUM_OF_GUEST + 1) * tr.countP fun p => p.2.isInterest :=
  ⟨_, _, run_interest tcpPre, by decide +kernel,
    amplification textLibs_lawful textLibs_escapes plain_oneHost (List.nodup_singleton _) (run_interest tcpPre)⟩

/-! ### How the process ends -/

/-- An event that no handler faults on. -/
def Event.Readable (registerIp : List Text) : Event L → Prop
  | .capture error next _ _ => ¬ (error = false ∧ next.ReadsNull)
  | .interest name => IpNdn.Readable L registerIp name
  | _ => True

theorem Step.alive (h : Step L registerIp s e s') : s.crashed = false := by
  cases h <;> assumption

theorem states_alive (hL : L.Lawful) (hE : L.Escapes) (hip : ∀ ip ∈ registerIp, PlainComponent ip)
    (h : Run (Step L registerIp) start tr s) (hc : s.crashed = false) :
    ∀ t ∈ states tr s, Sound L registerIp t ∧ t.crashed = false := by
  induction h with
  | nil => exact List.forall_mem_singleton.mpr ⟨sound_start, rfl⟩
  | snoc hr he ih =>
    rw [states_snoc, List.forall_mem_append, List.forall_mem_singleton]
    exact ⟨ih he.alive, (sound hL hE hip hr).step hL hE hip he, hc⟩

/-- The process goes on just as long as every Interest that a filter for
pre-requests matches has the components of one, for TCP with a third field of
the uid that is an integer, and no frame that `decode` rejects is of 15 to 8613
bytes; Data never end it. -/
theorem alive_iff (hL : L.Lawful) (hE : L.Escapes) (hip : ∀ ip ∈ registerIp, PlainComponent ip)
    (h : Run (Step L registerIp) start tr s) : s.crashed = false ↔ ∀ p ∈ tr, p.2.Readable registerIp := by
  have hstep : ∀ s e s', (Sound L registerIp s ∧ s.crashed = false) → Step L registerIp s e s' →
      ((Sound L registerIp s' ∧ s'.crashed = false) ↔ e.Readable registerIp) := by
    intro s e s' ⟨hs, _⟩ he
    have hs' := hs.step hL hE hip he
    cases he.transition hL hE hip hs with
    | interest _ _ _ _ _ hc | capture _ _ _ _ hc => exact ⟨fun h => hc.mp h.2, fun h => ⟨hs', hc.mpr h⟩⟩
    | _ => exact ⟨fun _ => trivial, fun _ => ⟨hs', rfl⟩⟩
  rw [← h.forall_states_iff ⟨sound_start, rfl⟩ hstep]
  exact ⟨states_alive hL hE hip h, fun hall => (hall s (mem_states_self tr s)).2⟩

/-- A frame ends the process, or the prefix of a filter alone, sent as a name. -/
theorem alive_iff_ended :
    (∃ tr s, Run (Step textLibs oneHost) start tr s ∧ s.crashed = true ∧
      (s.crashed = false ↔ ∀ p ∈ tr, p.2.Readable oneHost) ∧ ∀ p ∈ tr, p.2.isCapture) ∧
    ∃ tr s, Run (Step textLibs oneHost) start tr s ∧ s.crashed = true ∧
      (s.crashed = false ↔ ∀ p ∈ tr, p.2.Readable oneHost) ∧ ∀ p ∈ tr, p.2.isInterest := by
  constructor
  · have h0 : Run (Step textLibs oneHost) start [] start := .nil
    have h := h0.snoc (.capture rfl false (.packet (zeroFrame 60)) 0 [])
    have hr : (zeroFrame 60).ReadsNull := ⟨by decide +kernel, by decide, by decide⟩
    have hx := handleRead_nullRead hr 0 [] Gateway.init
    have hc := congrArg crashed (run_ended (s := start) (some .nullRead) hx (List.append_nil _).symm)
    exact ⟨_, _, h, hc, alive_iff textLibs_lawful textLibs_escapes plain_oneHost h, List.forall_mem_singleton.mpr rfl⟩
  · have h := run_interest (textLibs.ofUri "/IP/TCP/pre/192.168.1.1".toList)
    exact ⟨_, _, h, by decide +kernel, alive_iff textLibs_lawful textLibs_escapes plain_oneHost h,
      List.forall_mem_singleton.mpr rfl⟩

/-! ### The two threads -/

/-- The half of a gateway that frames are captured in. -/
def publishing (g : Gateway) : MapCacheHelper (BitVec 32) × Globals × List FaceCall :=
  (g.sequenceTable, g.globals, g.face.filter (·.publishes))

/-- The half of a gateway that the face's callbacks work on. -/
def subscribing (g : Gateway) : SetHelper Text × List (List Byte × Text) × List FaceCall :=
  (g.prefixGuestTable, g.rawSocket, g.face.filter fun c => !c.publishes)

theorem filter_publishes {calls : List FaceCall} (h : ∀ c ∈ calls, c.publishes) :
    calls.filter (·.publishes) = calls ∧ calls.filter (fun c => !c.publishes) = [] :=
  ⟨List.filter_eq_self.mpr h, List.filter_eq_nil_iff.mpr fun c hc => by simp [h c hc]⟩

theorem filter_calls {is : List SentInterest} (h : ∀ i ∈ is, i.isPre = false) :
    (is.map SentInterest.call).filter (·.publishes) = [] ∧
      (is.map SentInterest.call).filter (fun c => !c.publishes) = is.map SentInterest.call := by
  refine ⟨List.filter_eq_nil_iff.mpr fun c hc => ?_, List.filter_eq_self.mpr fun c hc => ?_⟩ <;>
  · obtain ⟨i, hi, rfl⟩ := List.mem_map.mp hc
    simp [SentInterest.call, FaceCall.publishes, h i hi]

/-- `handleRead` works on the publisher's half. -/
theorem acts_capture (error : Bool) (next : PcapNext) (now : Int) (uuid : Text) :
    (∃ F, Acts publishing F (after (handleRead error next now uuid))) ∧
      Acts subscribing id (after (handleRead error next now uuid)) := by
  obtain ⟨F, hF, hpub⟩ := exists_handleRead error next now uuid
  refine ⟨⟨fun p => ((F (p.1, p.2.1)).1, (F (p.1, p.2.1)).2.1, p.2.2 ++ (F (p.1, p.2.1)).2.2), fun g => ?_⟩,
    fun g => ?_⟩
  · rw [after_of_ended (hF g), publishing, Gateway.captured]
    simp only [publishing, List.filter_append, (filter_publishes (hpub _)).1]
  · rw [after_of_ended (hF g), subscribing, Gateway.captured]
    simp only [subscribing, List.filter_append, (filter_publishes (hpub _)).2, List.append_nil, id]

/-- The callbacks work on the subscriber's. -/
theorem acts_callback (hL : L.Lawful) (hE : L.Escapes) (hip : ∀ ip ∈ registerIp, PlainComponent ip) {e : Event L}
    (he : e.isCapture = false) :
    (∃ F, Acts subscribing F (after (handler L registerIp e))) ∧
      Acts publishing id (after (handler L registerIp e)) := by
  cases e with
  | capture => cases he
  | interest name =>
    obtain ⟨fault, ask, hx, ha, -⟩ := callback_processInterest hL hE hip name
    have hg (g : Gateway) : after (processInterest L registerIp name) g = g.asked (ask g.prefixGuestTable) :=
      after_of_ended (hx g)
    have hc (table : SetHelper Text) := filter_calls fun i hi => ((ha table).2 i hi).1
    refine ⟨⟨fun p => ((ask p.1).1, p.2.1, p.2.2 ++ (ask p.1).2.map SentInterest.call), fun g => ?_⟩, fun g => ?_⟩
    · rw [handler, hg, subscribing, Gateway.asked]
      simp only [subscribing, List.filter_append, (hc _).2]
    · rw [handler, hg, publishing, Gateway.asked]
      simp only [publishing, List.filter_append, (hc _).1, List.append_nil, id]
  | data i name content =>
    obtain ⟨sent, hsent⟩ := exists_after_onData (L := L) name content i.isPre i.isTCP
    refine ⟨⟨fun p => (p.1, p.2.1 ++ sent, p.2.2), fun g => ?_⟩, fun g => ?_⟩
    · rw [handler, hsent]
      rfl
    · rw [handler, hsent]
      rfl
  | timeout i =>
    have h (g : Gateway) : after (onTimeout i.isPre) g = g := by
      cases i.isPre <;> rfl
    exact ⟨⟨id, fun g => congrArg subscribing (h g)⟩, fun g => congrArg publishing (h g)⟩
  | nack i => exact ⟨⟨id, fun _ => rfl⟩, fun _ => rfl⟩

/-- The handlers of some events, one after another. -/
def handleAll (L : Libs) (registerIp : List Text) (es : List (Event L)) (g : Gateway) : Gateway :=
  es.foldl (fun g e => after (handler L registerIp e) g) g

theorem gateway_eq (h : Run (Step L registerIp) start tr s) :
    s.gateway = handleAll L registerIp (tr.map (·.2)) .init := by
  induction h with
  | nil => rfl
  | snoc _ he ih =>
    rw [handleAll] at ih ⊢
    rw [List.map_append, List.foldl_append, ← ih]
    cases he <;> rfl

/-- The thread that captures and the thread of the face do not disturb each
other: however their handlers take turns, each half of the gateway ends as if
its own handlers had run alone. -/
theorem halves_independent (hL : L.Lawful) (hE : L.Escapes) (hip : ∀ ip ∈ registerIp, PlainComponent ip)
    (h : Run (Step L registerIp) start tr s) :
    publishing s.gateway =
        publishing (handleAll L registerIp ((tr.map (·.2)).filter (·.isCapture)) .init) ∧
      subscribing s.gateway =
        subscribing (handleAll L registerIp ((tr.map (·.2)).filter fun e => !e.isCapture) .init) := by
  have hcap : ∀ e : Event L, e.isCapture = true → (∃ F, Acts publishing F (after (handler L registerIp e))) ∧
      Acts subscribing id (after (handler L registerIp e)) := by
    intro e he
    cases e with
    | capture error next now uuid => exact acts_capture error next now uuid
    | _ => cases he
  have hcb : ∀ e : Event L, e.isCapture = false → (∃ F, Acts subscribing F (after (handler L registerIp e))) ∧
      Acts publishing id (after (handler L registerIp e)) := fun e he => acts_callback hL hE hip he
  rw [gateway_eq h]
  refine ⟨Acts.foldl_filter (fun e he => (hcap e he).1) (fun e he => (hcb e he).2) _ rfl,
    Acts.foldl_filter (fun e he => (hcb e ?_).1) (fun e he => (hcap e ?_).2) _ rfl⟩
  · simpa using he
  · simpa using he

/-- An Interest between two frames. -/
theorem halves_independent_between : ∃ tr s, Run (Step textLibs oneHost) start tr s ∧
    (tr.map fun p => p.2.isCapture) = [true, false, true] ∧
    publishing s.gateway = publishing (handleAll textLibs oneHost ((tr.map (·.2)).filter (·.isCapture)) .init) := by
  have h0 : Run (Step textLibs oneHost) start [] start := .nil
  have h1 := h0.snoc (.capture rfl false (.packet (udpFrame 42)) 0 [])
  have h2 := h1.snoc (.interest (by decide +kernel) otherPre)
  have h3 := h2.snoc (.capture (by decide +kernel) false (.packet (udpFrame 42)) 1 [])
  exact ⟨_, _, h3, rfl, (halves_independent textLibs_lawful textLibs_escapes plain_oneHost h3).1⟩

end Node

end IpNdn
