import MiniOverlay.FixedByteCodec
import MiniOverlay.FormattedScan
import MiniOverlay.NeighborArrays

/-!
# Reading the topology file

The loop `while (fscanf(fp, "%s %s %d", ..) != EOF)` that the functions of
`topology/topology.c` and `nt_create` repeat, over the bytes of `topology.dat`. The loop
goes on after a conversion that failed, with what the variables held before.
-/

namespace MiniOverlay

open FixedByteCodec FormattedScan

set_option autoImplicit false

/-- `isspace`, the digits and the signs. -/
def ascii : Alphabet Byte where
  isSpace byte := byte = 32 ∨ 9 ≤ byte ∧ byte ≤ 13
  digit? byte := if 48 ≤ byte ∧ byte ≤ 57 then some (byte.toNat - 48) else none
  sign? byte := if byte = 45 then some true else if byte = 43 then some false else none
  digit_graph byte isDigit := by
    by_contra space
    simp only [Bool.not_eq_false, decide_eq_true_eq] at space
    split_ifs at isDigit with range
    · grind
    · cases isDigit
  sign_graph byte isSign := by
    by_contra space
    simp only [Bool.not_eq_false, decide_eq_true_eq] at space
    split_ifs at isSign with minus plus
    · grind
    · grind
    · cases isSign
  sign_no_digit byte isSign := by
    split_ifs at isSign with minus plus
    · rw [if_neg (by grind)]
    · rw [if_neg (by grind)]
    · cases isSign

/-- `host1`, `host2` and `link_cost`, which the loop does not clear between its turns. -/
structure LineVars where
  host1 : List Byte
  host2 : List Byte
  linkCost : Int32
  deriving DecidableEq

def endOfFile : Int := -1

/-- `fscanf(fp, "%s %s %d", host1, host2, &link_cost)`: the number of assigned variables, the
variables and the rest of the file. A token has any length, and an integer beyond an `int` is
taken modulo 2^32. -/
def fscanfLine (vars : LineVars) (text : List Byte) : Int × LineVars × List Byte :=
  match ascii.scanString text with
  | none => (endOfFile, vars, [])
  | some (host1, text) =>
      match ascii.scanString text with
      | none => (1, { vars with host1 := host1 }, [])
      | some (host2, text) =>
          match ascii.scanInteger text with
          | (none, text) => (2, { vars with host1 := host1, host2 := host2 }, text)
          | (some linkCost, text) => (3, ⟨host1, host2, Int32.ofInt linkCost⟩, text)

/-- The loop around a body that goes on with a state or returns from the function. -/
def lineLoop {State Result : Type} (body : State → LineVars → Except Result State) :
    Nat → LineVars → State → List Byte → Option (Except Result State)
  | 0, _, _, _ => none
  | turns + 1, vars, state, text =>
      let scanned := fscanfLine vars text
      if scanned.1 ≠ endOfFile then
        match body state scanned.2.1 with
        | .error result => some (.error result)
        | .ok state => lineLoop body turns scanned.2.1 state scanned.2.2
      else some (.ok state)

/-- Every turn but the last takes a byte off the file, so the loop has turns enough. -/
def fscanfLoop {State Result : Type} (body : State → LineVars → Except Result State)
    (vars : LineVars) (state : State) (text : List Byte) : Option (Except Result State) :=
  lineLoop body (text.length + 1) vars state text

/-- Whatever the body does, it is run on these values of the variables, in this order, until
it returns. -/
def ActsOn (vars : LineVars) (text : List Byte) (lines : List LineVars) : Prop :=
  ∀ (State Result : Type) (body : State → LineVars → Except Result State) (state : State),
    fscanfLoop body vars state text = some (lines.foldlM body state)

def scannedLines : Nat → LineVars → List Byte → Option (List LineVars)
  | 0, _, _ => none
  | turns + 1, vars, text =>
      let scanned := fscanfLine vars text
      if scanned.1 ≠ endOfFile then
        (scannedLines turns scanned.2.1 scanned.2.2).map (scanned.2.1 :: ·)
      else some []

theorem fscanf_eof_iff (vars : LineVars) (text : List Byte) :
    (fscanfLine vars text).1 = endOfFile ↔ ascii.Blank text := by
  rw [← Alphabet.scan_string_none_iff, fscanfLine, endOfFile]
  cases ascii.scanString text with
  | none => simp
  | some first =>
      cases second : ascii.scanString first.2 with
      | none => simp [second]
      | some rest =>
          cases third : ascii.scanInteger rest.2 with
          | mk value left => cases value <;> simp [second, third]

theorem fscanf_shorter {vars : LineVars} {text : List Byte}
    (notEnded : (fscanfLine vars text).1 ≠ endOfFile) :
    (fscanfLine vars text).2.2.length < text.length := by
  unfold fscanfLine at notEnded ⊢
  cases first : ascii.scanString text with
  | none => simp [first] at notEnded
  | some host1 =>
      have shorter := Alphabet.scan_string_shorter first
      simp only
      cases second : ascii.scanString host1.2 with
      | none => exact Nat.lt_of_le_of_lt (Nat.zero_le _) shorter
      | some host2 =>
          have shorterAgain := Alphabet.scan_string_shorter second
          have notLonger : (ascii.scanInteger host2.2).2.length ≤ host2.2.length :=
            Alphabet.scan_integer_length host2.2
          simp only
          cases third : ascii.scanInteger host2.2 with
          | mk value left =>
              rw [third] at notLonger
              cases value <;> simp only at notLonger ⊢ <;> omega

theorem scanned_lines_end (turns : Nat) (vars : LineVars) (text : List Byte)
    (enough : text.length < turns) : ∃ lines, scannedLines turns vars text = some lines := by
  induction turns generalizing vars text with
  | zero => cases enough
  | succ turns ih =>
      rw [scannedLines]
      by_cases ended : (fscanfLine vars text).1 = endOfFile
      · exact ⟨[], if_neg (not_not.mpr ended)⟩
      · have shorter := fscanf_shorter ended
        obtain ⟨lines, scanned⟩ := ih (fscanfLine vars text).2.1 (fscanfLine vars text).2.2
          (by omega)
        exact ⟨_, by rw [if_pos ended, scanned]; rfl⟩

theorem line_loop_folds {State Result : Type} (body : State → LineVars → Except Result State)
    (turns : Nat) {vars : LineVars} {text : List Byte} {lines : List LineVars}
    (scanned : scannedLines turns vars text = some lines) (state : State) :
    lineLoop body turns vars state text = some (lines.foldlM body state) := by
  induction turns generalizing vars text lines state with
  | zero => cases scanned
  | succ turns ih =>
      rw [scannedLines] at scanned
      rw [lineLoop]
      by_cases ended : (fscanfLine vars text).1 = endOfFile
      · rw [if_neg (not_not.mpr ended)] at scanned ⊢
        cases scanned
        rfl
      · rw [if_pos ended] at scanned ⊢
        obtain ⟨rest, later, rfl⟩ := Option.map_eq_some_iff.mp scanned
        rw [List.foldlM_cons]
        cases body state (fscanfLine vars text).2.1 with
        | error result => rfl
        | ok next => exact ih later next

theorem acts_on_iff (vars : LineVars) (text : List Byte) (lines : List LineVars) :
    ActsOn vars text lines ↔ scannedLines (text.length + 1) vars text = some lines := by
  obtain ⟨all, scanned⟩ := scanned_lines_end (text.length + 1) vars text (Nat.lt_succ_self _)
  have folds {State Result : Type} (body : State → LineVars → Except Result State)
      (state : State) := line_loop_folds body _ scanned state
  refine ⟨fun acts => ?_, fun same State Result body state => ?_⟩
  · -- a body that writes down what it sees
    have seen := acts (List LineVars) Empty (fun seen line => .ok (seen ++ [line])) []
    have collects (seen items : List LineVars) :
        items.foldlM (fun seen line => (.ok (seen ++ [line]) : Except Empty (List LineVars))) seen =
          .ok (seen ++ items) := by
      induction items generalizing seen with
      | nil => rw [List.append_nil]; rfl
      | cons item items ih =>
          rw [List.foldlM_cons]
          exact (ih (seen ++ [item])).trans (by rw [List.append_assoc]; rfl)
    rw [fscanfLoop, folds, collects, collects] at seen
    rw [scanned]
    simpa using seen
  · rw [scanned] at same
    cases same
    exact folds body state

inductive RecordText : List Byte → LineVars → Prop where
  | record {space host1 gap1 host2 gap2 number : List Byte} {linkCost : Int}
      (space_blank : ascii.Blank space) (host1_word : ascii.Word host1)
      (gap1_blank : ascii.Blank gap1) (gap1_nonempty : gap1 ≠ []) (host2_word : ascii.Word host2)
      (gap2_blank : ascii.Blank gap2) (gap2_nonempty : gap2 ≠ [])
      (numeral : ascii.Numeral number linkCost) :
      RecordText (space ++ host1 ++ gap1 ++ host2 ++ gap2 ++ number)
        ⟨host1, host2, Int32.ofInt linkCost⟩

/-- A file that begins with complete records; the last argument is what stands behind them,
an incomplete record or nothing but white space when there are no more. -/
inductive RecordFile : List Byte → List LineVars → List Byte → Prop where
  | rest (left : List Byte) : RecordFile left [] left
  | record {text rest left : List Byte} {line : LineVars} {lines : List LineVars}
      (first : RecordText text line) (separated : ascii.Separated rest)
      (later : RecordFile rest lines left) : RecordFile (text ++ rest) (line :: lines) left

theorem separated_gap {gap : List Byte} (blank : ascii.Blank gap) (nonempty : gap ≠ [])
    (text : List Byte) : ascii.Separated (gap ++ text) := by
  obtain ⟨symbol, more, rfl⟩ := List.exists_cons_of_ne_nil nonempty
  intro first member
  cases member
  exact blank symbol (by simp)

theorem fscanf_record {text : List Byte} {line : LineVars} (record : RecordText text line)
    {rest : List Byte} (separated : ascii.Separated rest) (vars : LineVars) :
    fscanfLine vars (text ++ rest) = (3, line, rest) := by
  cases record with
  | @record space host1 gap1 host2 gap2 number linkCost blank word1 blank1 filled1 word2 blank2
      filled2 numeral =>
    have first := Alphabet.scan_string_word blank word1
      (separated_gap blank1 filled1 (host2 ++ gap2 ++ number ++ rest))
    have second := Alphabet.scan_string_word blank1 word2
      (separated_gap blank2 filled2 (number ++ rest))
    have third := Alphabet.scan_integer_numeral blank2 numeral separated
    simp only [List.append_assoc] at first second third ⊢
    simp only [fscanfLine, first, second, third]

theorem records_scanned {text left : List Byte} {lines : List LineVars}
    (file : RecordFile text lines left) (turns : Nat) (vars : LineVars)
    (enough : text.length < turns) :
    ∃ turnsLeft last, left.length < turnsLeft ∧ scannedLines turns vars text =
      (scannedLines turnsLeft last left).map (lines ++ ·) := by
  induction file generalizing turns vars with
  | rest left => exact ⟨turns, vars, enough, by simp⟩
  | @record text rest left line lines first separated later ih =>
      obtain ⟨turns, rfl⟩ : ∃ less, turns = less + 1 := ⟨turns - 1, by omega⟩
      have scanned := fscanf_record first separated vars
      have goesOn : (fscanfLine vars (text ++ rest)).1 ≠ endOfFile := by
        rw [scanned]
        exact (by decide : (3 : Int) ≠ endOfFile)
      have shorter := fscanf_shorter goesOn
      rw [scanned] at shorter
      obtain ⟨turnsLeft, last, fewer, rest⟩ := ih turns line (by simp only at shorter; omega)
      refine ⟨turnsLeft, last, fewer, ?_⟩
      rw [scannedLines, if_pos goesOn, scanned, rest, Option.map_map]
      rfl

theorem acts_on_records_iff (vars : LineVars) {text left : List Byte} {records : List LineVars}
    (file : RecordFile text records left) : ActsOn vars text records ↔ ascii.Blank left := by
  obtain ⟨turns, last, enough, scanned⟩ :=
    records_scanned file (text.length + 1) vars (Nat.lt_succ_self _)
  obtain ⟨more, moreScanned⟩ := scanned_lines_end turns last left enough
  rw [acts_on_iff, scanned, moreScanned, Option.map_some, Option.some_inj,
    List.append_right_eq_self, ← fscanf_eof_iff last]
  obtain ⟨turns, rfl⟩ : ∃ less, turns = less + 1 := ⟨turns - 1, by omega⟩
  rw [scannedLines] at moreScanned
  by_cases ended : (fscanfLine last left).1 = endOfFile
  · rw [if_neg (not_not.mpr ended)] at moreScanned
    exact iff_of_true (Option.some.inj moreScanned).symm ended
  · rw [if_pos ended] at moreScanned
    obtain ⟨rest, _, rfl⟩ := Option.map_eq_some_iff.mp moreScanned
    exact iff_of_false (List.cons_ne_nil _ _) ended

/-- The loop ends on every file, and it acts on the complete records at the front of the file,
and on nothing else, exactly when there is nothing but white space behind them. -/
theorem record_loop_iff (vars : LineVars) (text : List Byte) :
    (∃ lines, ActsOn vars text lines) ∧
      ∀ records left, RecordFile text records left →
        (ActsOn vars text records ↔ ascii.Blank left) := by
  obtain ⟨lines, scanned⟩ := scanned_lines_end (text.length + 1) vars text (Nat.lt_succ_self _)
  exact ⟨⟨lines, (acts_on_iff vars text lines).mpr scanned⟩,
    fun records left file => acts_on_records_iff vars file⟩

theorem short_record {space : List Byte} {host1 host2 digit : Byte} (blank : ascii.Blank space)
    (letter1 : ascii.isSpace host1 = false) (letter2 : ascii.isSpace host2 = false)
    (isDigit : ascii.isDigit digit = true) :
    RecordText (space ++ [host1] ++ [32] ++ [host2] ++ [32] ++ [digit])
      ⟨[host1], [host2], Int32.ofInt (Alphabet.signed false (ascii.digitsValue [digit]))⟩ := by
  have gap : ascii.Blank [32] := by decide
  have word1 : ascii.Word [host1] :=
    ⟨List.cons_ne_nil _ _, List.forall_mem_singleton.mpr letter1⟩
  have word2 : ascii.Word [host2] :=
    ⟨List.cons_ne_nil _ _, List.forall_mem_singleton.mpr letter2⟩
  have digits : ascii.Digits [digit] :=
    ⟨List.cons_ne_nil _ _, List.forall_mem_singleton.mpr isDigit⟩
  exact .record blank word1 gap (List.cons_ne_nil _ _) word2 gap (List.cons_ne_nil _ _)
    (.unsigned digits)

/-- The file `a b 5` with a second line that ends behind its first host, `c`. -/
def cutFile : List Byte := [97, 32, 98, 32, 53, 10, 99]

def clearedVars : LineVars := ⟨[], [], 0⟩

/-- The loop acts on a record that is not in the file: the new host with the old other host and
the old cost. -/
theorem cut_file_acts_on_phantom :
    RecordFile cutFile [⟨[97], [98], 5⟩] [10, 99] ∧
      ¬ ActsOn clearedVars cutFile [⟨[97], [98], 5⟩] ∧
      ActsOn clearedVars cutFile [⟨[97], [98], 5⟩, ⟨[99], [98], 5⟩] := by
  have scanned : scannedLines (cutFile.length + 1) clearedVars cutFile =
      some [⟨[97], [98], 5⟩, ⟨[99], [98], 5⟩] := by decide
  refine ⟨?_, ?_, (acts_on_iff _ _ _).mpr scanned⟩
  · have first : RecordText [97, 32, 98, 32, 53] ⟨[97], [98], 5⟩ :=
      short_record (by decide : ascii.Blank []) (by decide) (by decide) (by decide)
    exact .record first (by decide) (.rest _)
  · rw [acts_on_iff, scanned]
    decide

section Functions

variable (nodeIDfromname : List Byte → Int32) (myNodeID : Int32)

def LineVars.toLine (vars : LineVars) : TopologyLine :=
  ⟨nodeIDfromname vars.host1, nodeIDfromname vars.host2, vars.linkCost⟩

def LineVars.toHostLine (address : List Byte → InAddr) (vars : LineVars) : HostLine :=
  ⟨vars.toLine nodeIDfromname, address vars.host1, address vars.host2⟩

def nbrNumBody (nbrNum : Nat) (vars : LineVars) : Except Empty Nat :=
  .ok (if nodeIDfromname vars.host1 = myNodeID ∨ nodeIDfromname vars.host2 = myNodeID then
    nbrNum + 1 else nbrNum)

/-- A body that saves something of a line behind what it has saved. -/
def saveBody {Value : Type} (pick : LineVars → Option Value) (saved : List Value)
    (vars : LineVars) : Except Empty (List Value) :=
  .ok (saved ++ (pick vars).toList)

def nbrArrayBody : List Int32 → LineVars → Except Empty (List Int32) :=
  saveBody fun vars => nbrOfLine myNodeID (vars.toLine nodeIDfromname)

def ntCreateBody (address : List Byte → InAddr) :
    List AddressedNbrEntry → LineVars → Except Empty (List AddressedNbrEntry) :=
  saveBody fun vars => ntEntryOfLine myNodeID (vars.toHostLine nodeIDfromname address)

def nodeNumBody (nodes : List Int32) (vars : LineVars) : Except Empty (List Int32) :=
  .ok (markNode (markNode nodes (nodeIDfromname vars.host1)) (nodeIDfromname vars.host2))

/-- `topology_getCost`, which returns from the loop. -/
def costBody (fromNodeID toNodeID : Int32) (_ : Unit) (vars : LineVars) : Except UInt32 Unit :=
  let nodeID1 := nodeIDfromname vars.host1
  let nodeID2 := nodeIDfromname vars.host2
  if fromNodeID = nodeID1 ∧ toNodeID = nodeID2 ∨ fromNodeID = nodeID2 ∧ toNodeID = nodeID1 then
    .error vars.linkCost.toUInt32
  else .ok ()

/-- `topology_getCost` around its loop. -/
def getCostOfFile (vars : LineVars) (text : List Byte) (fromNodeID toNodeID : Int32) :
    Option UInt32 :=
  if fromNodeID = toNodeID then some 0
  else
    (fscanfLoop (costBody nodeIDfromname fromNodeID toNodeID) vars () text).map fun looped =>
      match looped with
      | .error linkCost => linkCost
      | .ok _ => infiniteCost

variable {nodeIDfromname myNodeID}

theorem save_body_folds {Value : Type} (pick : LineVars → Option Value) (records : List LineVars)
    (saved : List Value) :
    records.foldlM (saveBody pick) saved = .ok (saved ++ records.filterMap pick) := by
  induction records generalizing saved with
  | nil => rw [List.filterMap_nil, List.append_nil]; rfl
  | cons record records ih =>
      rw [List.foldlM_cons]
      refine (ih (saved ++ (pick record).toList)).trans ?_
      rw [List.append_assoc, List.filterMap_cons]
      cases pick record <;> rfl

theorem nbr_num_folds (records : List LineVars) (nbrNum : Nat) :
    records.foldlM (nbrNumBody nodeIDfromname myNodeID) nbrNum =
      .ok (nbrNum + topologyGetNbrNum (records.map (·.toLine nodeIDfromname)) myNodeID) := by
  induction records generalizing nbrNum with
  | nil => rfl
  | cons record records ih =>
      rw [List.foldlM_cons]
      refine (ih _).trans ?_
      rw [List.map_cons, topologyGetNbrNum, topologyGetNbrNum, List.countP_cons, LineVars.toLine]
      split_ifs with isNbr <;> simp_all
      omega

theorem node_num_folds (records : List LineVars) (nodes : List Int32) :
    records.foldlM (nodeNumBody nodeIDfromname) nodes =
      .ok ((records.map (·.toLine nodeIDfromname)).foldl
        (fun nodes line => markNode (markNode nodes line.nodeID1) line.nodeID2) nodes) := by
  induction records generalizing nodes with
  | nil => rfl
  | cons record records ih =>
      rw [List.foldlM_cons]
      exact ih _

theorem cost_folds (records : List LineVars) {fromNodeID toNodeID : Int32}
    (apart : fromNodeID ≠ toNodeID) :
    (match records.foldlM (costBody nodeIDfromname fromNodeID toNodeID) () with
      | .error linkCost => linkCost
      | .ok _ => infiniteCost) =
      topologyGetCost (records.map (·.toLine nodeIDfromname)) fromNodeID toNodeID := by
  induction records with
  | nil => rw [topologyGetCost, if_neg apart]; rfl
  | cons record records ih =>
      rw [topologyGetCost, if_neg apart] at ih ⊢
      rw [List.foldlM_cons, List.map_cons, List.find?_cons, costBody, LineVars.toLine]
      by_cases found : fromNodeID = nodeIDfromname record.host1 ∧
          toNodeID = nodeIDfromname record.host2 ∨
        fromNodeID = nodeIDfromname record.host2 ∧ toNodeID = nodeIDfromname record.host1
      · simp only [found, if_true, decide_true]
        rfl
      · simp only [found, if_false, decide_false]
        exact ih

/-- On a file of complete records the functions compute what they compute of its lines. -/
theorem complete_file_functions {text left : List Byte} {records : List LineVars}
    (file : RecordFile text records left) (blank : ascii.Blank left) (vars : LineVars)
    (address : List Byte → InAddr) (fromNodeID toNodeID : Int32) :
    let lines := records.map (·.toLine nodeIDfromname)
    fscanfLoop (nbrNumBody nodeIDfromname myNodeID) vars 0 text =
        some (.ok (topologyGetNbrNum lines myNodeID)) ∧
      fscanfLoop (nbrArrayBody nodeIDfromname myNodeID) vars [] text =
        some (.ok (topologyGetNbrArray lines myNodeID)) ∧
      fscanfLoop (ntCreateBody nodeIDfromname myNodeID address) vars [] text =
        some (.ok (ntEntries (records.map (·.toHostLine nodeIDfromname address)) myNodeID)) ∧
      fscanfLoop (nodeNumBody nodeIDfromname) vars [] text = some (.ok (topologyNodes lines)) ∧
      getCostOfFile nodeIDfromname vars text fromNodeID toNodeID =
        some (topologyGetCost lines fromNodeID toNodeID) := by
  intro lines
  have acts := (acts_on_records_iff vars file).mpr blank
  refine ⟨?_, ?_, ?_, ?_, ?_⟩
  · rw [acts, nbr_num_folds, Nat.zero_add]
  · rw [acts, nbrArrayBody, save_body_folds, List.nil_append, ← nbr_array_eq, List.filterMap_map]
    rfl
  · rw [acts, ntCreateBody, save_body_folds, List.nil_append, ntEntries, List.filterMap_map]
    rfl
  · rw [acts, node_num_folds]
    rfl
  · rw [getCostOfFile]
    by_cases same : fromNodeID = toNodeID
    · rw [if_pos same, topologyGetCost, if_pos same]
    · rw [if_neg same, acts, Option.map_some, cost_folds records same]

end Functions

def twoLineFile : List Byte := [97, 32, 98, 32, 53, 10, 98, 32, 99, 32, 55, 10]

theorem two_line_file :
    RecordFile twoLineFile [⟨[97], [98], 5⟩, ⟨[98], [99], 7⟩] [10] := by
  have first : RecordText [97, 32, 98, 32, 53] ⟨[97], [98], 5⟩ :=
    short_record (by decide : ascii.Blank []) (by decide) (by decide) (by decide)
  have second : RecordText [10, 98, 32, 99, 32, 55] ⟨[98], [99], 7⟩ :=
    short_record (by decide : ascii.Blank [10]) (by decide) (by decide) (by decide)
  exact .record first (by decide) (.record second (by decide) (.rest [10]))

/-- The hosts `a`, `b` and so on are the nodes 1, 2 and so on. -/
def letterID (host : List Byte) : Int32 := Int32.ofNat ((host.headD 96).toNat - 96)

/-- On node 2. -/
theorem two_line_functions :
    fscanfLoop (nbrArrayBody letterID 2) clearedVars [] twoLineFile = some (.ok [1, 3]) ∧
      fscanfLoop (nodeNumBody letterID) clearedVars [] twoLineFile = some (.ok [1, 2, 3]) ∧
      getCostOfFile letterID clearedVars twoLineFile 3 2 = some 7 := by
  obtain ⟨_, nbrs, _, nodes, cost⟩ := @complete_file_functions letterID 2 _ _ _ two_line_file
    (by decide) clearedVars (fun _ => ⟨0, 0, 0, 0⟩) 3 2
  exact ⟨nbrs, nodes, cost⟩

end MiniOverlay
