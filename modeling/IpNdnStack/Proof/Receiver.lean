import IpNdnStack.Framework.Window
import IpNdnStack.Proof.Names

/-!
# What `dealOnInterest` and `dealOnData` do

The outcome of each callback, as the state it leaves, by what its name's
components are: `dealOnTcpPreRequest_ok` for a TCP or UDP pre-request that can
be read, which is one request of a `Window` on the table and the Interests
expressed (`Gateway.withWindow`); the faults for one that cannot;
`dealOnOtherPreRequest_ok` for the other pre-requests; and `dealOnData_ok`.
-/

namespace IpNdn

open Handler

/-! ## Reading fields -/

theorem fieldAt_of_some {v : List Text} {i : Nat} {x : Text} (h : v[i]? = some x) (g : Gateway) :
    fieldAt v i g = .ok x g := by
  simp only [fieldAt, h, pure_apply]

theorem fieldAt_of_none {v : List Text} {i : Nat} (h : v[i]? = none) (g : Gateway) :
    fieldAt v i g = .error .outOfRange g := by
  simp only [fieldAt, h, throw_apply]

section

variable (L : Libs)

theorem lexicalCastInt_of_some {L : Libs} {s : Text} {n : BitVec 32} (h : L.lexicalCast s = some n) (g : Gateway) :
    lexicalCastInt L s g = .ok n g := by
  simp only [lexicalCastInt, h, pure_apply]

theorem lexicalCastInt_of_none {L : Libs} {s : Text} (h : L.lexicalCast s = none) (g : Gateway) :
    lexicalCastInt L s g = .error .badLexicalCast g := by
  simp only [lexicalCastInt, h, throw_apply]

/-- The fields of a name's URI: an empty one, then its components. -/
theorem Libs.Lawful.split_toUri {L : Libs} (hL : L.Lawful) {n : L.Name} (hne : L.components n ≠ []) :
    L.split (L.toUri n) '/' = [] :: L.components n := by
  rw [hL.split_eq, hL.toUri_eq n hne, splitOn_uriOf (hL.slash_notMem n)]

theorem Libs.Lawful.split_ofUri {L : Libs} (hL : L.Lawful) {cs : List Text} (hne : cs ≠ [])
    (h : ∀ c ∈ cs, PlainComponent c) : L.split (L.toUri (L.ofUri (uriOf cs))) '/' = [] :: cs := by
  rw [hL.toUri_ofUri hne h, hL.split_eq, splitOn_uriOf fun c hc => (h c hc).slash]

/-! ## The table and the Interests -/

/-- The gateway with the table of `w`, after the Interests of `w`. -/
def Gateway.withWindow (g : Gateway) (w : Window Text) : Gateway :=
  { g with
    prefixGuestTable := ⟨w.entries⟩
    face := g.face ++ w.expressed.map (.expressInterest · false true) }

theorem Gateway.withWindow_self (g : Gateway) : g.withWindow ⟨g.prefixGuestTable.s, []⟩ = g := by
  simp only [withWindow, List.map_nil, List.append_nil]

/-- The gateway after its formal Interest. -/
def Gateway.formal (g : Gateway) (name : Text) : Gateway :=
  { g with
    prefixGuestTable := g.prefixGuestTable.erase name
    face := g.face ++ [.expressInterest name false true] }

theorem Gateway.formal_withWindow (g : Gateway) (w : Window Text) (name : Text) :
    (g.withWindow w).formal name = g.withWindow (w.formal name) := by
  simp only [formal, withWindow, Window.formal, SetHelper.erase, List.map_append, List.map_cons, List.map_nil,
    List.append_assoc]

/-- The names that the loop tries from `n` on. -/
def guessNames (guessName : Text) (n : BitVec 32) (k : Nat) : List Text :=
  (List.range k).map fun i => guessName ++ intText (n + BitVec.ofNat 32 (i + 1)).toInt

theorem guessNames_succ (guessName : Text) (n : BitVec 32) (k : Nat) :
    guessNames guessName n (k + 1) = (guessName ++ intText (n + 1).toInt) :: guessNames guessName (n + 1) k := by
  simp only [guessNames, List.range_succ_eq_map, List.map_cons, List.map_map]
  refine congrArg₂ _ rfl (List.map_congr_left fun i _ => ?_)
  have e : BitVec.ofNat 32 (i + 1 + 1) = 1 + BitVec.ofNat 32 (i + 1) := by
    rw [Nat.add_comm (i + 1) 1, BitVec.ofNat_add]
    rfl
  simp only [Function.comp, Nat.succ_eq_add_one, e, BitVec.add_assoc]

/-- The loop guesses its names in turn. -/
theorem guess_ok (guessName : Text) (k : Nat) (n : BitVec 32) (g : Gateway) (w : Window Text) :
    guess guessName k n (g.withWindow w) =
      .ok ⟨⟩ (g.withWindow ((guessNames guessName n k).foldl Window.guess w)) := by
  induction k generalizing n w with
  | zero => rfl
  | succ k ih =>
    rw [guess, guessNames_succ, List.foldl_cons]
    dsimp only
    rw [bind_of_ok (get_apply _)]
    by_cases hm : guessName ++ intText (n + 1).toInt ∈ w.entries
    · rw [Window.guess, if_pos hm]
      have hs : (g.withWindow w).prefixGuestTable.saveConcurrence (guessName ++ intText (n + 1).toInt) =
        (⟨w.entries⟩, false) := SetHelper.saveConcurrence_of_mem hm
      simp only [hs, Bool.false_eq_true, if_false]
      rw [bind_of_ok (set_apply _ _)]
      exact ih (n + 1) w
    · rw [Window.guess, if_neg hm]
      have hs : (g.withWindow w).prefixGuestTable.saveConcurrence (guessName ++ intText (n + 1).toInt) =
        (⟨insert (guessName ++ intText (n + 1).toInt) w.entries⟩, true) := SetHelper.saveConcurrence_of_notMem hm
      simp only [hs, if_true]
      rw [bind_of_ok (set_apply _ _), expressInterest, bind_of_ok (modify_apply _ _), ← ih (n + 1)]
      simp only [Gateway.withWindow, List.map_append, List.map_cons, List.map_nil, List.append_assoc]

/-! ## TCP and UDP pre-requests -/

/-- What follows the formal Interest. -/
def guessFrom (guessName uid : Text) : GatewayM Unit := do
  let uuidFields := L.split uid '-'
  let numOfSequence ← lexicalCastInt L (← fieldAt uuidFields 2)
  let guessName := guessName ++ '/' :: (← fieldAt uuidFields 0) ++ '-' :: (← fieldAt uuidFields 1) ++ ['-']
  guess guessName NUM_OF_GUEST numOfSequence

/-- `/IP/TCP/dip/sip` -/
def guessPrefix (dip sip : Text) : Text := "/IP/TCP".toList ++ '/' :: dip ++ '/' :: sip

variable {L}

/-- With enough components, the formal Interest is expressed before anything
else is read. -/
theorem dealOnTcpPreRequest_formal {name sip dip uid : Text} (h4 : (L.split name '/')[4]? = some sip)
    (h5 : (L.split name '/')[5]? = some dip) (h6 : (L.split name '/')[6]? = some uid) (g : Gateway) :
    dealOnTcpPreRequest L name g =
      guessFrom L (guessPrefix dip sip) uid (g.formal (guessPrefix dip sip ++ '/' :: uid)) := by
  rw [dealOnTcpPreRequest]
  dsimp only
  rw [bind_of_ok (fieldAt_of_some h4 g), bind_of_ok (fieldAt_of_some h5 g), bind_of_ok (fieldAt_of_some h6 g),
    expressInterest, bind_of_ok (modify_apply _ _), bind_of_ok (get_apply _)]
  by_cases hm : guessPrefix dip sip ++ '/' :: uid ∈ g.prefixGuestTable.s
  · have hf : g.prefixGuestTable.find (guessPrefix dip sip ++ '/' :: uid) = true := decide_eq_true hm
    exact (congrFun (if_pos hf) _).trans (bind_of_ok (set_apply _ _))
  · have hf : ¬ g.prefixGuestTable.find (guessPrefix dip sip ++ '/' :: uid) = true := fun h =>
      hm (of_decide_eq_true h)
    have e : g.prefixGuestTable.erase (guessPrefix dip sip ++ '/' :: uid) = g.prefixGuestTable := by
      rw [SetHelper.erase, Finset.erase_eq_of_notMem hm]
    rw [Gateway.formal, e]
    exact congrFun (if_neg hf) _

theorem dealOnTcpPreRequest_short {name : Text} (h : (L.split name '/').length < 7) (g : Gateway) :
    dealOnTcpPreRequest L name g = .error .outOfRange g := by
  rw [dealOnTcpPreRequest]
  dsimp only
  rcases h4 : (L.split name '/')[4]? with _ | sip
  · exact bind_of_error (fieldAt_of_none h4 g)
  rw [bind_of_ok (fieldAt_of_some h4 g)]
  rcases h5 : (L.split name '/')[5]? with _ | dip
  · exact bind_of_error (fieldAt_of_none h5 g)
  rw [bind_of_ok (fieldAt_of_some h5 g)]
  exact bind_of_error (fieldAt_of_none (List.getElem?_eq_none (by omega)) g)

theorem guessFrom_ok {guessName uid a b c : Text} {n : BitVec 32} (h0 : (L.split uid '-')[0]? = some a)
    (h1 : (L.split uid '-')[1]? = some b) (h2 : (L.split uid '-')[2]? = some c) (hc : L.lexicalCast c = some n)
    (g : Gateway) (w : Window Text) :
    guessFrom L guessName uid (g.withWindow w) = .ok ⟨⟩ (g.withWindow
      ((guessNames (guessName ++ '/' :: a ++ '-' :: b ++ ['-']) n NUM_OF_GUEST).foldl Window.guess w)) := by
  rw [guessFrom]
  dsimp only
  rw [bind_of_ok (fieldAt_of_some h2 _), bind_of_ok (lexicalCastInt_of_some hc _),
    bind_of_ok (fieldAt_of_some h0 _), bind_of_ok (fieldAt_of_some h1 _)]
  exact guess_ok _ _ _ _ _

theorem guessFrom_short {uid : Text} (h : (L.split uid '-').length < 3) (guessName : Text) (g : Gateway) :
    guessFrom L guessName uid g = .error .outOfRange g := by
  rw [guessFrom]
  exact bind_of_error (fieldAt_of_none (List.getElem?_eq_none (by omega)) g)

theorem guessFrom_badCast {uid c : Text} (h2 : (L.split uid '-')[2]? = some c) (hc : L.lexicalCast c = none)
    (guessName : Text) (g : Gateway) : guessFrom L guessName uid g = .error .badLexicalCast g := by
  rw [guessFrom]
  dsimp only
  rw [bind_of_ok (fieldAt_of_some h2 _)]
  exact bind_of_error (lexicalCastInt_of_none hc g)

/-- However it ends, what follows the formal Interest only guesses. -/
theorem after_guessFrom (L : Libs) (guessName uid : Text) (g : Gateway) (w : Window Text) :
    ∃ gs : List Text,
      after (guessFrom L guessName uid) (g.withWindow w) = g.withWindow (gs.foldl Window.guess w) := by
  by_cases hl : (L.split uid '-').length < 3
  · exact ⟨[], after_of_error (guessFrom_short hl _ _)⟩
  have get (i : Nat) (hi : i < 3) : ∃ x, (L.split uid '-')[i]? = some x :=
    ⟨_, List.getElem?_eq_getElem (by omega)⟩
  obtain ⟨a, h0⟩ := get 0 (by omega)
  obtain ⟨b, h1⟩ := get 1 (by omega)
  obtain ⟨c, h2⟩ := get 2 (by omega)
  rcases hc : L.lexicalCast c with _ | n
  · exact ⟨[], after_of_error (guessFrom_badCast h2 hc _ _)⟩
  · exact ⟨_, after_of_ok (guessFrom_ok h0 h1 h2 hc g w)⟩

/-- However it ends, a pre-request with six components is a request of the
window. -/
theorem after_dealOnTcpPreRequest {name : Text} (hl : 7 ≤ (L.split name '/').length) (g : Gateway)
    (w : Window Text) :
    ∃ r, after (dealOnTcpPreRequest L name) (g.withWindow w) = g.withWindow (w.request r) := by
  have get (i : Nat) (hi : i < 7) : ∃ x, (L.split name '/')[i]? = some x :=
    ⟨_, List.getElem?_eq_getElem (by omega)⟩
  obtain ⟨sip, h4⟩ := get 4 (by omega)
  obtain ⟨dip, h5⟩ := get 5 (by omega)
  obtain ⟨uid, h6⟩ := get 6 (by omega)
  obtain ⟨gs, hgs⟩ := after_guessFrom L (guessPrefix dip sip) uid g (w.formal (guessPrefix dip sip ++ '/' :: uid))
  refine ⟨(guessPrefix dip sip ++ '/' :: uid, gs), ?_⟩
  rw [← Gateway.formal_withWindow] at hgs
  rw [after, dealOnTcpPreRequest_formal h4 h5 h6]
  exact hgs

/-- A pre-request that can be read is a request of the window. -/
theorem dealOnTcpPreRequest_ok {name sip dip uid a b c : Text} {n : BitVec 32}
    (h4 : (L.split name '/')[4]? = some sip) (h5 : (L.split name '/')[5]? = some dip)
    (h6 : (L.split name '/')[6]? = some uid) (h0 : (L.split uid '-')[0]? = some a)
    (h1 : (L.split uid '-')[1]? = some b) (h2 : (L.split uid '-')[2]? = some c) (hc : L.lexicalCast c = some n)
    (g : Gateway) (w : Window Text) :
    dealOnTcpPreRequest L name (g.withWindow w) = .ok ⟨⟩ (g.withWindow (w.request
      (guessPrefix dip sip ++ '/' :: uid,
        guessNames (guessPrefix dip sip ++ '/' :: a ++ '-' :: b ++ ['-']) n NUM_OF_GUEST))) := by
  rw [dealOnTcpPreRequest_formal h4 h5 h6, Gateway.formal_withWindow]
  exact guessFrom_ok h0 h1 h2 hc g _

/-! ## Other pre-requests -/

theorem dealOnOtherPreRequest_ok {name sip dip uid : Text} (h3 : (L.split name '/')[3]? = some sip)
    (h4 : (L.split name '/')[4]? = some dip) (h5 : (L.split name '/')[5]? = some uid) (g : Gateway) :
    dealOnOtherPreRequest L name g = .ok ⟨⟩
      { g with face := g.face ++ [.expressInterest ("/IP".toList ++ '/' :: dip ++ '/' :: sip ++ '/' :: uid)
          false false] } := by
  rw [dealOnOtherPreRequest]
  dsimp only
  rw [bind_of_ok (fieldAt_of_some h3 g), bind_of_ok (fieldAt_of_some h4 g), bind_of_ok (fieldAt_of_some h5 g),
    expressInterest, modify_apply]

theorem dealOnOtherPreRequest_short {name : Text} (h : (L.split name '/').length < 6) (g : Gateway) :
    dealOnOtherPreRequest L name g = .error .outOfRange g := by
  rw [dealOnOtherPreRequest]
  dsimp only
  rcases h3 : (L.split name '/')[3]? with _ | sip
  · exact bind_of_error (fieldAt_of_none h3 g)
  rw [bind_of_ok (fieldAt_of_some h3 g)]
  rcases h4 : (L.split name '/')[4]? with _ | dip
  · exact bind_of_error (fieldAt_of_none h4 g)
  rw [bind_of_ok (fieldAt_of_some h4 g)]
  exact bind_of_error (fieldAt_of_none (List.getElem?_eq_none (by omega)) g)

/-! ## Data -/

theorem dealOnData_ok {dataName : L.Name} {isTCP : Bool} {ip : Text}
    (h : (L.split (L.toUri dataName) '/')[if isTCP then 4 else 3]? = some ip) (content : List Byte) (g : Gateway) :
    dealOnData L dataName content false isTCP g = .ok ⟨⟩ { g with rawSocket := g.rawSocket ++ [(content, ip)] } := by
  rw [dealOnData]
  cases isTCP
  · exact bind_of_ok (fieldAt_of_some h g)
  · exact bind_of_ok (fieldAt_of_some h g)

/-! ## Names from the network -/

/-- A uid `a-b-int`. -/
def WellFormedUid (L : Libs) (uid : Text) : Prop :=
  ∃ a b c, '-' ∉ a ∧ '-' ∉ b ∧ uid = a ++ '-' :: b ++ '-' :: c ∧ L.lexicalCast c ≠ none

/-- A uid `a-b-int` with an integer that has no minus. -/
def ReadableUid (L : Libs) (uid : Text) : Prop :=
  ∃ a b c, '-' ∉ a ∧ '-' ∉ b ∧ '-' ∉ c ∧ uid = a ++ '-' :: b ++ '-' :: c ∧ L.lexicalCast c ≠ none

/-- The components of a pre-request: five, or six with a good uid. -/
def PreRequest (goodUid : Text → Prop) (isTCP : Bool) (cs : List Text) : Prop :=
  if isTCP then ∃ uid, cs[5]? = some uid ∧ goodUid uid else 5 ≤ cs.length

/-- An Interest is handled to the end; and unless it is a well-formed
pre-request, it has no effect on the face and the table. -/
def Robust (L : Libs) (f : InterestFilter L) (interest : L.Name) (g : Gateway) : Prop :=
  (∃ g', dealOnInterest L interest f.isPre f.isTCP g = .ok ⟨⟩ g') ∧
    (¬ (f.isPre ∧ PreRequest (WellFormedUid L) f.isTCP (L.components interest)) →
      (after (dealOnInterest L interest f.isPre f.isTCP) g).face = g.face ∧
        (after (dealOnInterest L interest f.isPre f.isTCP) g).prefixGuestTable = g.prefixGuestTable)

theorem splitOn_uid {a b : Text} (ha : '-' ∉ a) (hb : '-' ∉ b) (c : Text) :
    (a ++ '-' :: b ++ '-' :: c).splitOn '-' = a :: b :: c.splitOn '-' := by
  rw [List.append_assoc, List.cons_append, List.splitOn_append_cons_self_of_not_mem ha,
    List.splitOn_append_cons_self_of_not_mem hb]

/-- A minus before the integer gives an empty field in its place. -/
theorem WellFormedUid.cases (hL : L.Lawful) {uid : Text} (h : WellFormedUid L uid) :
    ReadableUid L uid ∨ ∃ c, (L.split uid '-')[2]? = some c ∧ L.lexicalCast c = none := by
  obtain ⟨a, b, c, ha, hb, rfl, hc⟩ := h
  by_cases hm : '-' ∈ c
  · obtain ⟨n, hn⟩ := Option.ne_none_iff_exists'.mp hc
    obtain ⟨d, rfl⟩ := hL.lexicalCast_minus c n hn hm
    refine .inr ⟨[], ?_, hL.lexicalCast_nil⟩
    have e : ('-' :: d).splitOn '-' = [] :: d.splitOn '-' :=
      List.splitOn_append_cons_self_of_not_mem (List.not_mem_nil : '-' ∉ ([] : Text)) d
    rw [hL.split_eq, splitOn_uid ha hb, e]
    rfl
  · exact .inl ⟨a, b, c, ha, hb, hm, rfl, hc⟩

/-- With six components, the face has been called. -/
theorem after_dealOnTcpPreRequest_face {name : Text} (hl : 7 ≤ (L.split name '/').length) (g : Gateway) :
    (after (dealOnTcpPreRequest L name) g).face ≠ g.face := by
  obtain ⟨r, hr⟩ := after_dealOnTcpPreRequest hl g ⟨g.prefixGuestTable.s, []⟩
  rw [Gateway.withWindow_self] at hr
  rw [hr]
  intro hf
  have hp := (Window.expressed_request ⟨g.prefixGuestTable.s, []⟩ r).length_le
  have hl := congrArg List.length hf
  simp only [Gateway.withWindow, List.length_append, List.length_map] at hl
  simp only [List.nil_append, List.length_singleton] at hp
  omega

/-- A pre-request of a TCP flow is handled well just when its uid can be read. -/
theorem dealOnTcpPreRequest_robust (hL : L.Lawful) {interest : L.Name} (hne : L.components interest ≠ [])
    (hl : 6 ≤ (L.components interest).length) (registerPrefix : L.Name) (g : Gateway) :
    Robust L ⟨registerPrefix, true, true⟩ interest g ↔
      PreRequest (ReadableUid L) true (L.components interest) := by
  have hs := hL.split_toUri hne
  have get (i : Nat) (hi : i < 6) : ∃ x, (L.components interest)[i]? = some x :=
    ⟨_, List.getElem?_eq_getElem (by omega)⟩
  obtain ⟨sip, h4⟩ := get 3 (by omega)
  obtain ⟨dip, h5⟩ := get 4 (by omega)
  obtain ⟨uid, h6⟩ := get 5 (by omega)
  have hf : ∀ {i x}, (L.components interest)[i]? = some x → (L.split (L.toUri interest) '/')[i + 1]? = some x :=
    fun h => by rw [hs, List.getElem?_cons_succ, h]
  have hu : ∀ good, PreRequest good true (L.components interest) ↔ good uid := fun good => by
    simp only [PreRequest, if_true, h6, Option.some.injEq, exists_eq_left']
  simp only [Robust, hu, true_and]
  refine ⟨fun h => ?_, fun h => ?_⟩
  · obtain ⟨⟨g', hg'⟩, hn⟩ := h
    by_cases hw : WellFormedUid L uid
    · refine (hw.cases hL).resolve_right fun ⟨c, h2, hc⟩ => ?_
      have h := dealOnTcpPreRequest_formal (hf h4) (hf h5) (hf h6) g
      rw [guessFrom_badCast h2 hc] at h
      cases h.symm.trans hg'
    · refine absurd (hn hw).1 (after_dealOnTcpPreRequest_face ?_ g)
      rw [hs, List.length_cons]
      omega
  · obtain ⟨a, b, c, ha, hb, hc, e, hi⟩ := h
    obtain ⟨n, hn⟩ := Option.ne_none_iff_exists'.mp hi
    have hsu : L.split uid '-' = [a, b, c] := by
      rw [hL.split_eq, e, splitOn_uid ha hb, List.splitOn_eq_singleton hc]
    have h := dealOnTcpPreRequest_ok (hf h4) (hf h5) (hf h6) (by rw [hsu]; rfl) (by rw [hsu]; rfl)
      (by rw [hsu]; rfl) hn g ⟨g.prefixGuestTable.s, []⟩
    rw [Gateway.withWindow_self] at h
    exact ⟨⟨_, h⟩, fun hw => absurd ⟨a, b, c, ha, hb, e, hi⟩ hw⟩

theorem dealOnOtherPreRequest_robust (hL : L.Lawful) {interest : L.Name} (hne : L.components interest ≠ [])
    (registerPrefix : L.Name) (g : Gateway) :
    Robust L ⟨registerPrefix, true, false⟩ interest g ↔ 5 ≤ (L.components interest).length := by
  have hs := hL.split_toUri hne
  have hw : ∀ good, PreRequest good false (L.components interest) ↔ 5 ≤ (L.components interest).length :=
    fun good => by simp only [PreRequest, Bool.false_eq_true, if_false]
  simp only [Robust, hw, true_and]
  refine ⟨fun h => ?_, fun hl => ?_⟩
  · obtain ⟨⟨g', hg'⟩, -⟩ := h
    by_contra hl
    have h := dealOnOtherPreRequest_short (L := L) (by rw [hs, List.length_cons]; omega) g
    cases h.symm.trans hg'
  · have get (i : Nat) (hi : i < 6) : ∃ x, (L.split (L.toUri interest) '/')[i]? = some x :=
      ⟨_, List.getElem?_eq_getElem (by rw [hs, List.length_cons]; omega)⟩
    obtain ⟨sip, h3⟩ := get 3 (by omega)
    obtain ⟨dip, h4⟩ := get 4 (by omega)
    obtain ⟨uid, h5⟩ := get 5 (by omega)
    exact ⟨⟨_, dealOnOtherPreRequest_ok h3 h4 h5 g⟩, fun h => absurd hl h⟩

/-- The four filters of an address. -/
def filters (L : Libs) (ip : Text) : List (InterestFilter L) :=
  [⟨L.ofUri (uriOf [cIP, cPre, ip]), true, false⟩, ⟨L.ofUri (uriOf [cIP, ip]), false, false⟩,
    ⟨L.ofUri (uriOf [cIP, cTCP, cPre, ip]), true, true⟩, ⟨L.ofUri (uriOf [cIP, cTCP, ip]), false, true⟩]

/-- The prefixes of `start`, as components. -/
theorem start_eq (L : Libs) (registerIp : List Text) : start L registerIp = registerIp.flatMap (filters L) := by
  obtain ⟨p1, p2, p3, p4⟩ := prefixes_eq
  have e (cs : List Text) (ip : Text) : uriOf cs ++ '/' :: ip = uriOf (cs ++ [ip]) := by
    rw [uriOf_append, uriOf_cons, show uriOf [] = [] from rfl, List.append_nil]
  rw [start, p1, p2, p3, p4]
  simp only [e, List.cons_append, List.nil_append]
  rfl

/-- The components of what the four filters register. -/
theorem components_filters (hL : L.Lawful) {ip : Text} (h : PlainComponent ip) :
    L.components (L.ofUri (uriOf [cIP, cPre, ip])) = [cIP, cPre, ip] ∧
      L.components (L.ofUri (uriOf [cIP, ip])) = [cIP, ip] ∧
      L.components (L.ofUri (uriOf [cIP, cTCP, cPre, ip])) = [cIP, cTCP, cPre, ip] ∧
      L.components (L.ofUri (uriOf [cIP, cTCP, ip])) = [cIP, cTCP, ip] := by
  obtain ⟨h1, h2, h3⟩ := plain_fixed
  refine ⟨?_, ?_, ?_, ?_⟩ <;> exact hL.components_ofUri _ (List.cons_ne_nil _ _) (by simp [h, h1, h2, h3])

/-- A registered prefix has components. -/
theorem components_ne_nil (hL : L.Lawful) {registerIp : List Text} (hip : ∀ ip ∈ registerIp, PlainComponent ip)
    {f : InterestFilter L} (hf : f ∈ start L registerIp) : L.components f.registerPrefix ≠ [] := by
  rw [start_eq] at hf
  obtain ⟨ip, hi, hf⟩ := List.mem_flatMap.mp hf
  obtain ⟨e1, e2, e3, e4⟩ := components_filters hL (hip ip hi)
  simp only [filters, List.mem_cons, List.not_mem_nil, or_false] at hf
  rcases hf with rfl | rfl | rfl | rfl
  · simp [e1]
  · simp [e2]
  · simp [e3]
  · simp [e4]

/-- For a name that matches a filter: it is handled well just when the filter
is none for pre-requests, or the name has the fields of a pre-request, with a
uid of three fields, the third an integer. -/
theorem dealOnInterest_robust_iff (hL : L.Lawful) {registerIp : List Text}
    (hip : ∀ ip ∈ registerIp, PlainComponent ip) {f : InterestFilter L} (hf : f ∈ start L registerIp)
    {interest : L.Name} (hm : L.isPrefixOf f.registerPrefix interest) (g : Gateway) :
    Robust L f interest g ↔ (f.isPre → PreRequest (ReadableUid L) f.isTCP (L.components interest)) := by
  have hne : L.components interest ≠ [] := fun e => by
    rw [Libs.isPrefixOf, e, List.isPrefixOf_iff_prefix, List.prefix_nil] at hm
    exact components_ne_nil hL hip hf hm
  obtain ⟨registerPrefix, isPre, isTCP⟩ := f
  cases isPre
  · exact ⟨fun _ h => absurd h Bool.false_ne_true, fun _ => ⟨⟨g, rfl⟩, fun _ => ⟨rfl, rfl⟩⟩⟩
  · cases isTCP
    · rw [dealOnOtherPreRequest_robust hL hne]
      simp only [PreRequest, Bool.false_eq_true, if_false, forall_const]
    · by_cases hl : 6 ≤ (L.components interest).length
      · rw [dealOnTcpPreRequest_robust hL hne hl]
        simp only [forall_const]
      · have hs : (L.split (L.toUri interest) '/').length < 7 := by
          rw [hL.split_toUri hne, List.length_cons]
          omega
        refine ⟨?_, fun h => ?_⟩
        · rintro ⟨⟨g', hg'⟩, -⟩
          cases (dealOnTcpPreRequest_short hs g).symm.trans hg'
        · obtain ⟨uid, hu, -⟩ : ∃ uid, (L.components interest)[5]? = some uid ∧ ReadableUid L uid := h rfl
          rw [List.getElem?_eq_none (by omega)] at hu
          cases hu

/-- The filter for the TCP and UDP pre-requests of 192.168.1.1. -/
def tcpPreFilter : InterestFilter textLibs :=
  ⟨textLibs.ofUri (PREFIX_TCP_PRE_REQUEST ++ '/' :: "192.168.1.1".toList), true, true⟩

theorem mem_tcpPreFilter : tcpPreFilter ∈ start textLibs ["192.168.1.1".toList] :=
  List.mem_cons_of_mem _ (List.mem_cons_of_mem _ List.mem_cons_self)

/-- A whole pre-request. -/
theorem dealOnInterest_robust_whole :
    Robust textLibs tcpPreFilter (textLibs.ofUri "/IP/TCP/pre/192.168.1.1/192.168.1.4/80-443-7".toList) .init :=
  (dealOnInterest_robust_iff textLibs_lawful
    (fun ip h => List.mem_singleton.mp h ▸ (plain_ipText 0x0101a8c0 : PlainComponent "192.168.1.1".toList))
    mem_tcpPreFilter (by decide) _).mpr
    fun _ => ⟨"80-443-7".toList, by decide, "80".toList, "443".toList, "7".toList, by decide⟩

/-- The prefix alone, as a name: the fifth field is not there. -/
theorem dealOnInterest_not_robust :
    tcpPreFilter ∈ start textLibs ["192.168.1.1".toList] ∧
      textLibs.isPrefixOf tcpPreFilter.registerPrefix (textLibs.ofUri "/IP/TCP/pre/192.168.1.1".toList) ∧
      ¬ Robust textLibs tcpPreFilter (textLibs.ofUri "/IP/TCP/pre/192.168.1.1".toList) .init := by
  refine ⟨mem_tcpPreFilter, by decide, ?_⟩
  rintro ⟨⟨g', hg'⟩, -⟩
  cases (dealOnTcpPreRequest_short (by decide) Gateway.init).symm.trans hg'

end

end IpNdn
