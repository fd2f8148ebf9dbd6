import Commissioning.InputAction.Row
import Commissioning.Proofs.Logged

/-!
The format of rows, in both directions. Writing a row and taking it apart gives its fields back, and
writing those fields again gives the row back, but for two bits of the transition that no field has:

    InputAction ──octets──▶ row ──ofOctets──▶ DecodedAction ──action──▶ InputAction
                             │ first | transition | endpoint | low | high | command | payload …
                             └───────  H I _ _ i i f f ── bits 4 and 5 are lost

Rows that are too short for the fields are left out of a table, and nothing else is.
-/
namespace Commissioning

/-- An integer that an octet can hold. -/
def IsOctet (n : Int) : Prop := 0 ≤ n ∧ n ≤ 255

instance (n : Int) : Decidable (IsOctet n) := inferInstanceAs (Decidable (0 ≤ n ∧ n ≤ 255))

/-! ### Octets -/

theorem octetOfInt_eq_ok {n : Int} {b : UInt8} : Value.octetOfInt n = .ok b ↔ n = b.toNat := by
  unfold Value.octetOfInt
  constructor
  · intro h
    split at h
    · next hn =>
      cases h
      rw [UInt8.toNat_ofNat']
      omega
    · cases h
  · rintro rfl
    have hb : b.toNat < 256 := b.toNat_lt
    rw [if_pos (by omega), Int.toNat_natCast, UInt8.ofNat_toNat]

/-- Integers that fit octets are the numbers of some octets. -/
theorem exists_octets {ns : List Int} (h : ∀ n ∈ ns, IsOctet n) :
    ∃ bs : List UInt8, ns = bs.map fun b => (b.toNat : Int) := by
  induction ns with
  | nil => exact ⟨[], rfl⟩
  | cons n ns ih =>
    obtain ⟨⟨hlow, hhigh⟩, hns⟩ := List.forall_mem_cons.mp h
    obtain ⟨bs, rfl⟩ := ih hns
    refine ⟨UInt8.ofNat n.toNat :: bs, ?_⟩
    rw [List.map_cons, UInt8.toNat_ofNat']
    congr 1
    omega

theorem forall₂_octetOfInt {ns : List Int} {bs : List UInt8} :
    List.Forall₂ (fun n b => Value.octetOfInt n = .ok b) ns bs ↔
      ns = bs.map fun b => (b.toNat : Int) := by
  simp only [octetOfInt_eq_ok]
  induction bs generalizing ns with
  | nil => simp
  | cons b bs ih => cases ns <;> simp [ih]

/-- An item is an octet exactly if it is an integer that fits one; truth values count as integers. -/
theorem toOctet_eq_ok {v : Value} {b : UInt8} :
    v.toOctet = .ok b ↔ v.asIndex? = some (b.toNat : Int) := by
  unfold Value.toOctet
  cases v.asIndex? with
  | none => simp
  | some n => rw [octetOfInt_eq_ok, Option.some_inj]

/-- Octets that are given as a list of numbers are read back. -/
theorem toOctets_ofOctets (bs : List UInt8) : (Value.ofOctets bs).toOctets = .ok bs := by
  refine mapM_eq_ok.mpr ?_
  rw [List.forall₂_map_left_iff, List.forall₂_same]
  intro b _
  exact toOctet_eq_ok.mpr rfl

namespace InputAction

/-- The row of an action as octets: they are its numbers. -/
theorem octets_eq_ok {a : InputAction} {bs : List UInt8} :
    a.octets = .ok bs ↔ a.row = bs.map fun b => (b.toNat : Int) := by
  rw [octets, mapM_eq_ok, forall₂_octetOfInt]

/-- All fields of an action fit their places in a row. -/
structure Fits (a : InputAction) : Prop where
  input : IsOctet a.input.number
  transition : IsOctet a.transition
  endpoint : IsOctet a.endpoint.number
  cluster : 0 ≤ a.cluster ∧ a.cluster ≤ 65535
  command : IsOctet a.command
  payload : ∀ n ∈ a.payload, IsOctet n.number

theorem row_eq (a : InputAction) : a.row = [a.input.number, a.transition, a.endpoint.number,
    a.cluster % 256, a.cluster / 256 % 256, a.command] ++ a.payload.map Numeral.number := rfl

theorem Fits.row {a : InputAction} (h : a.Fits) : ∀ n ∈ a.row, IsOctet n := by
  intro n hn
  rw [row_eq, List.mem_append] at hn
  rcases hn with hn | hn
  · have hlow : IsOctet (a.cluster % 256) := by unfold IsOctet; omega
    have hhigh : IsOctet (a.cluster / 256 % 256) := by unfold IsOctet; omega
    simp only [List.mem_cons, List.not_mem_nil, or_false] at hn
    rcases hn with rfl | rfl | rfl | rfl | rfl | rfl
    · exact h.input
    · exact h.transition
    · exact h.endpoint
    · exact hlow
    · exact hhigh
    · exact h.command
  · obtain ⟨p, hp, rfl⟩ := List.mem_map.mp hn
    exact h.payload p hp

end InputAction

/-! ### The transition -/

/-- The bits of a transition that a field shows. -/
def shownBits : Nat := 0xCF

theorem InputState.code_ofCode (n : Nat) : (InputState.ofCode n).code = n % 4 := by
  have hn : n % 4 = 0 ∨ n % 4 = 1 ∨ n % 4 = 2 ∨ n % 4 = 3 := by omega
  unfold ofCode
  rcases hn with h | h | h | h <;> rw [h] <;> rfl

theorem toNat_bit (n : Nat) : (n % 2 == 1).toNat = n % 2 := by
  rcases Nat.mod_two_eq_zero_or_one n with h | h
  · rw [h]
    rfl
  · rw [h]
    rfl

/-- The two flags and the two states of a transition are all of its bits that are shown. -/
theorem recombine : ∀ n < 256,
    128 * (n / 128 % 2) + 64 * (n / 64 % 2) + 4 * (n / 4 % 4) + n % 4 = n &&& shownBits := by
  decide +kernel

/-- Hidden bits are in none of the flags and states. -/
theorem parts_of_shown : ∀ n < 256, (n &&& shownBits) / 128 % 2 = n / 128 % 2 ∧
    (n &&& shownBits) / 64 % 2 = n / 64 % 2 ∧ (n &&& shownBits) / 4 % 4 = n / 4 % 4 ∧
    (n &&& shownBits) % 4 = n % 4 := by
  decide +kernel

/-- A transition without the bits that no field shows. -/
def clearedTransition (t : UInt8) : UInt8 := UInt8.ofNat (t.toNat &&& shownBits)

theorem toNat_clearedTransition (t : UInt8) :
    (clearedTransition t).toNat = t.toNat &&& shownBits := by
  have ht : t.toNat &&& shownBits ≤ t.toNat := Nat.and_le_left
  have hlt : t.toNat < 256 := t.toNat_lt
  rw [clearedTransition, UInt8.toNat_ofNat', Nat.mod_eq_of_lt]
  omega

/-- A row with the bits 4 and 5 of its transition cleared. -/
def clearedRow : List UInt8 → List UInt8
  | first :: transition :: rest => first :: clearedTransition transition :: rest
  | short => short

theorem InputState.ofCode_mod {n m : Nat} (h : n % 4 = m % 4) : ofCode n = ofCode m := by
  unfold ofCode
  rw [h]

namespace DecodedAction
variable {bs : List UInt8} {d : DecodedAction}

/-! ### One row -/

/-- A row either has all fields or is too short. -/
theorem row_cases (bs : List UInt8) : (∃ first transition endpoint low high command payload,
    bs = first :: transition :: endpoint :: low :: high :: command :: payload) ∨
    bs.length < headerLength := by
  rcases bs with _ | ⟨a, _ | ⟨b, _ | ⟨c, _ | ⟨d, _ | ⟨e, _ | ⟨f, payload⟩⟩⟩⟩⟩⟩
  case cons.cons.cons.cons.cons.cons => exact .inl ⟨a, b, c, d, e, f, payload, rfl⟩
  all_goals exact .inr (by simp [headerLength])

theorem ofOctets_of_short (h : bs.length < headerLength) :
    ofOctets bs = .error (.shortRow bs.length) := by
  unfold headerLength at h
  match bs with
  | [] | [_] | [_, _] | [_, _, _] | [_, _, _, _] | [_, _, _, _, _] => rfl
  | _ :: _ :: _ :: _ :: _ :: _ :: _ => simp at h; omega

theorem ofOctets_of_long (h : headerLength ≤ bs.length) : ∃ d, ofOctets bs = .ok d := by
  rcases row_cases bs with ⟨first, transition, endpoint, low, high, command, payload, rfl⟩ | hs
  · exact ⟨_, rfl⟩
  · omega

/-- The fields of a row describe the row with its hidden bits cleared. -/
theorem row_of_ofOctets (h : ofOctets bs = .ok d) :
    d.row = (clearedRow bs).map UInt8.toNat ∧ d.cluster < 65536 := by
  rcases row_cases bs with ⟨first, transition, endpoint, low, high, command, payload, rfl⟩ | hs
  · cases h
    have hlow : low.toNat < 256 := low.toNat_lt
    have hhigh : high.toNat < 256 := high.toNat_lt
    have hfirst : first.toNat % 16 + 16 * (first.toNat / 16) = first.toNat := by omega
    have hclusterLow : (low.toNat + 256 * high.toNat) % 256 = low.toNat := by omega
    have hclusterHigh : (low.toNat + 256 * high.toNat) / 256 = high.toNat := by omega
    have htransition := recombine transition.toNat transition.toNat_lt
    constructor
    · simp only [row, DecodedAction.transition, InputState.code_ofCode, toNat_bit, hfirst,
        hclusterLow, hclusterHigh, htransition, clearedRow, List.map_cons,
        toNat_clearedTransition, List.cons_append, List.nil_append]
    · dsimp only
      omega
  · rw [ofOctets_of_short hs] at h
    cases h

/-- The fields of a row are those of an action: all of them, its transition without hidden bits. -/
structure Shows (d : DecodedAction) (a : InputAction) : Prop where
  input : (d.input + 16 * d.options : Int) = a.input.number
  transition : d.transition = a.transition.toNat &&& shownBits
  endpoint : (d.endpoint : Int) = a.endpoint.number
  cluster : (d.cluster : Int) = a.cluster
  command : (d.command : Int) = a.command
  payload : d.payload.map Nat.cast = a.payload.map Numeral.number

/-- A row that has been written for an action gives the fields of the action. -/
theorem ofOctets_octets {a : InputAction} (hcluster : 0 ≤ a.cluster ∧ a.cluster ≤ 65535)
    (h : a.octets = .ok bs) : ∃ d, ofOctets bs = .ok d ∧ d.Shows a := by
  rw [InputAction.octets_eq_ok, InputAction.row_eq] at h
  have hlong : headerLength ≤ bs.length := by
    have hlength := congrArg List.length h
    rw [List.length_append, List.length_map, List.length_map] at hlength
    exact Nat.le.intro hlength
  obtain ⟨d, hd⟩ := ofOctets_of_long hlong
  refine ⟨d, hd, ?_⟩
  obtain ⟨hrow, hsmall⟩ := row_of_ofOctets hd
  rcases row_cases bs with ⟨first, transition, endpoint, low, high, command, payload, rfl⟩ | hs
  · simp only [row, clearedRow, List.map_cons, List.cons_append, List.nil_append,
      List.cons.injEq, toNat_clearedTransition] at h hrow
    obtain ⟨hinput, htransition, hendpoint, hlow, hhigh, hcommand, hpayload⟩ := h
    obtain ⟨hinput', htransition', hendpoint', hlow', hhigh', hcommand', hpayload'⟩ := hrow
    constructor
    · omega
    · rw [htransition, Int.toNat_natCast, htransition']
    · omega
    · omega
    · omega
    · rw [hpayload, hpayload', List.map_map]
      rfl
  · omega

/-- The action that the fields describe. -/
def action (d : DecodedAction) : InputAction where
  input := .plain (d.input + 16 * d.options : Nat)
  transition := d.transition
  endpoint := .plain d.endpoint
  cluster := d.cluster
  command := d.command
  payload := d.payload.map fun (n : Nat) => .plain n

/-- Writing the fields of a row gives the row with its hidden bits cleared. -/
theorem octets_action (h : ofOctets bs = .ok d) : d.action.octets = .ok (clearedRow bs) := by
  obtain ⟨hrow, hsmall⟩ := row_of_ofOctets h
  have hhigh : (d.cluster : Int) / 256 % 256 = (d.cluster / 256 : Nat) := by omega
  have haction : d.action.row = d.row.map Nat.cast := by
    rw [InputAction.row_eq, row]
    simp only [action, Numeral.number, hhigh, List.map_append, List.map_cons, List.map_nil,
      List.map_map]
    rfl
  rw [InputAction.octets_eq_ok, haction, hrow, List.map_map]
  rfl

/-- Hidden bits change no field. -/
theorem ofOctets_clearedRow (bs : List UInt8) : ofOctets (clearedRow bs) = ofOctets bs := by
  rcases row_cases bs with ⟨first, transition, endpoint, low, high, command, payload, rfl⟩ | hs
  · obtain ⟨hhas, his, hinitial, hfinal⟩ := parts_of_shown transition.toNat transition.toNat_lt
    simp only [clearedRow, ofOctets, toNat_clearedTransition, hhas, his,
      InputState.ofCode_mod hinitial, InputState.ofCode_mod hfinal]
  · have hlength : (clearedRow bs).length = bs.length := by
      unfold clearedRow
      split <;> rfl
    rw [ofOctets_of_short hs, ofOctets_of_short (hlength ▸ hs), hlength]

/-- Rows have equal fields exactly if they agree outside the hidden bits. -/
theorem ofOctets_eq_iff {bs' : List UInt8} (h : headerLength ≤ bs.length) :
    ofOctets bs = ofOctets bs' ↔ clearedRow bs = clearedRow bs' := by
  constructor
  · intro heq
    obtain ⟨d, hd⟩ := ofOctets_of_long h
    have hrow := octets_action hd
    rw [octets_action (heq ▸ hd)] at hrow
    exact (Except.ok.inj hrow).symm
  · intro heq
    rw [← ofOctets_clearedRow bs, heq, ofOctets_clearedRow]

/-! ### Tables -/

/-- The octets of the rows of a table that have all fields. -/
def complete (octets : List (List UInt8)) : List (List UInt8) :=
  octets.filter fun bs => headerLength ≤ bs.length

theorem ofValue_of_octets {v : Value} (h : v.toOctets = .ok bs) : ofValue v = ofOctets bs := by
  rw [ofValue, h]
  rfl

/-- Reading rows from some position on leaves out the short ones and keeps the order. -/
theorem ofRowsFrom_outcome {rows : List Value} {octets : List (List UInt8)}
    (h : List.Forall₂ (fun v bs => v.toOctets = .ok bs) rows octets) (index : Nat) :
    ∃ ds, (ofRowsFrom index rows).outcome = .ok ds ∧
      ds.map Except.ok = (complete octets).map ofOctets := by
  induction h generalizing index with
  | nil => exact ⟨[], rfl, rfl⟩
  | @cons v bs rows octets hv _ ih =>
    obtain ⟨ds, hds, hmap⟩ := ih (index + 1)
    rw [ofRowsFrom, ofValue_of_octets hv, complete]
    by_cases hlong : headerLength ≤ bs.length
    · obtain ⟨d, hd⟩ := ofOctets_of_long hlong
      rw [hd, List.filter_cons_of_pos (by simpa using hlong)]
      refine ⟨d :: ds, Logged.bind_outcome_eq_ok.mpr ⟨ds, hds, rfl⟩, ?_⟩
      rw [List.map_cons, List.map_cons, hmap, hd]
      rfl
    · rw [ofOctets_of_short (by omega), List.filter_cons_of_neg (by simpa using hlong)]
      exact ⟨ds, Logged.bind_outcome_eq_ok.mpr ⟨(), rfl, hds⟩, hmap⟩

theorem ofRows_outcome {rows : List Value} {octets : List (List UInt8)}
    (h : List.Forall₂ (fun v bs => v.toOctets = .ok bs) rows octets) :
    ∃ ds, (ofRows rows).outcome = .ok ds ∧ ds.map Except.ok = (complete octets).map ofOctets := by
  obtain ⟨ds, hds, hmap⟩ := ofRowsFrom_outcome h 0
  exact ⟨ds, Logged.bind_outcome_eq_ok.mpr ⟨ds, hds, rfl⟩, hmap⟩

/-- What the format of rows keeps, for one row in both directions and for a whole table. -/
theorem row_format_exact :
    (∀ a : InputAction, a.Fits →
      ∃ bs d, a.octets = .ok bs ∧ ofValue (.bytes bs) = .ok d ∧ d.Shows a) ∧
    (∀ (v : Value) (bs : List UInt8), v.toOctets = .ok bs → headerLength ≤ bs.length →
      ∃ d, ofValue v = .ok d ∧ d.action.octets = .ok (clearedRow bs)) ∧
    (∀ (v v' : Value) (bs bs' : List UInt8), v.toOctets = .ok bs → v'.toOctets = .ok bs' →
      headerLength ≤ bs.length → headerLength ≤ bs'.length →
      (ofValue v = ofValue v' ↔ clearedRow bs = clearedRow bs')) ∧
    (∀ (rows : List Value) (octets : List (List UInt8)),
      List.Forall₂ (fun v bs => v.toOctets = .ok bs) rows octets →
      ∃ ds, (ofTable (.list rows)).outcome = .ok ds ∧
        ds.map Except.ok = (complete octets).map ofOctets) := by
  refine ⟨?written, ?read, ?equal, ?table⟩
  case written =>
    intro a ha
    obtain ⟨bs, hbs⟩ := exists_octets ha.row
    have hoctets : a.octets = .ok bs := InputAction.octets_eq_ok.mpr hbs
    obtain ⟨d, hd, hshows⟩ := ofOctets_octets ha.cluster hoctets
    exact ⟨bs, d, hoctets, (ofValue_of_octets rfl).trans hd, hshows⟩
  case read =>
    intro v bs hv hlong
    obtain ⟨d, hd⟩ := ofOctets_of_long hlong
    exact ⟨d, (ofValue_of_octets hv).trans hd, octets_action hd⟩
  case equal =>
    intro v v' bs bs' hv hv' hlong _
    rw [ofValue_of_octets hv, ofValue_of_octets hv']
    exact ofOctets_eq_iff hlong
  case table =>
    intro rows octets h
    obtain ⟨ds, hds, hmap⟩ := ofRows_outcome h
    exact ⟨ds, Logged.bind_outcome_eq_ok.mpr ⟨rows, rfl, hds⟩, hmap⟩

/-- The recall of a scene for input 3 with options 2; all bits of its transition are set. -/
def sampleRecall : InputAction where
  input := .plain 0x23
  transition := 0xFF
  endpoint := .plain 2
  cluster := 5
  command := 5
  payload := [.plain 0x34, .plain 0x12, .plain 255]

/-- The row of the recall, the same row without the hidden bits, and a row that is too short. -/
theorem row_format_exact_recall :
    let row : List UInt8 := [0x23, 0xFF, 2, 5, 0, 5, 0x34, 0x12, 255]
    let shown : List UInt8 := [0x23, 0xCF, 2, 5, 0, 5, 0x34, 0x12, 255]
    sampleRecall.Fits ∧
    (∃ bs d, sampleRecall.octets = .ok bs ∧ ofValue (.bytes bs) = .ok d ∧ d.Shows sampleRecall) ∧
    (∃ d, ofValue (.ofOctets row) = .ok d ∧ d.action.octets = .ok shown) ∧
    (ofValue (.bytes row) = ofValue (.ofOctets shown) ↔ clearedRow row = clearedRow shown) ∧
    ∃ ds, (ofTable (.list [.bytes row, .ofOctets [7, 7], .bytes shown])).outcome = .ok ds ∧
      ds.map Except.ok = [row, shown].map ofOctets := by
  intro row shown
  obtain ⟨written, read, equal, table⟩ := row_format_exact
  have hfits : sampleRecall.Fits := by
    constructor <;> simp [sampleRecall, IsOctet, Numeral.number]
  have hlong : headerLength ≤ row.length := by decide
  have hshown : clearedRow row = shown := by decide
  refine ⟨hfits, written sampleRecall hfits, ?_, ?_, ?_⟩
  · rw [← hshown]
    exact read (.ofOctets row) row (toOctets_ofOctets row) hlong
  · exact equal (.bytes row) (.ofOctets shown) row shown rfl (toOctets_ofOctets shown) hlong hlong
  · exact table _ [row, [7, 7], shown] (.cons rfl (.cons (toOctets_ofOctets _) (.cons rfl .nil)))

end DecodedAction

end Commissioning
