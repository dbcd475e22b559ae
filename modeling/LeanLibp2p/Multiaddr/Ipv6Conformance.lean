import LeanLibp2p.Multiaddr.Ipv6Grammar

/-!
# Reading and writing IPv6 texts

`multiaddr_parse_ipv6` on its array of eight groups, with every access checked, and the text that
`multiaddr_write_ipv6` writes: the first longest run of zero groups is left out.
-/

namespace LeanLibp2p

open LeanLibp2p.Lib

/-! ## The array of groups -/

/-- An access outside the eight entries of `groups`. -/
structure IndexFault where
  index : Nat

/-- `groups[index]`. -/
def readGroup (groups : List Nat) (index : Nat) : Except IndexFault Nat :=
  match groups[index]? with
  | some group => .ok group
  | none => .error ⟨index⟩

/-- `groups[index] = value`. -/
def storeGroup (groups : List Nat) (index value : Nat) : Except IndexFault (List Nat) :=
  if index < groups.length then .ok (groups.set index value) else .error ⟨index⟩

/-- The loop that moves the groups behind the `::` to the end, `group_index` going down. -/
def shiftGroups (compressIndex zerosToInsert : Nat) :
    (groupIndex : Nat) → List Nat → Except IndexFault (List Nat)
  | 0, groups => .ok groups
  | groupIndex + 1, groups =>
    if groupIndex + 1 ≤ compressIndex then .ok groups
    else do
      let group ← readGroup groups groupIndex
      let groups ← storeGroup groups (groupIndex + 1 + zerosToInsert - 1) group
      shiftGroups compressIndex zerosToInsert groupIndex groups

/-- The loop that writes the zeros, for the `count` values of `group_index` that are left. -/
def fillGroups (compressIndex : Nat) :
    (count groupIndex : Nat) → List Nat → Except IndexFault (List Nat)
  | 0, _, groups => .ok groups
  | count + 1, groupIndex, groups => do
    let groups ← storeGroup groups (compressIndex + groupIndex) 0
    fillGroups compressIndex count (groupIndex + 1) groups

/-- The loop that writes `out`, for the `count` groups that are left. -/
def writeGroups (groups : List Nat) : (count groupIndex : Nat) → Except IndexFault Bytes
  | 0, _ => .ok []
  | count + 1, groupIndex => do
    let group ← readGroup groups groupIndex
    let out ← writeGroups groups count (groupIndex + 1)
    .ok (UInt8.ofNat (group >>> 8) :: UInt8.ofNat (group &&& 0xff) :: out)

/-- The rounds of `multiaddr_parse_ipv6` (`multiaddr.c:373-479`) on its array of eight groups. -/
def scanIpv6Array : (fuel : Nat) → (groups : List Nat) → (groupCount : Nat) →
    (compressIndex : Option Nat) → Bytes →
    Except IndexFault (Option (List Nat × Nat × Option Nat))
  | 0, _, _, _, _ => .ok none
  | fuel + 1, groups, groupCount, compressIndex, text =>
    if text = [] then .ok (some (groups, groupCount, compressIndex))
    else if 8 ≤ groupCount then .ok none
    else
      let segment := text.takeWhile fun c => c ≠ ascii ':' ∧ c ≠ ascii '.'
      let rest := text.dropWhile fun c => c ≠ ascii ':' ∧ c ≠ ascii '.'
      if rest.head? = some (ascii '.') then
        if 6 < groupCount then .ok none
        else
          match parseIpv4 text with
          | some [a, b, c, d] => do
            let groups ← storeGroup groups groupCount (a.toNat <<< 8 ||| b.toNat)
            let groups ← storeGroup groups (groupCount + 1) (c.toNat <<< 8 ||| d.toNat)
            .ok (some (groups, groupCount + 2, compressIndex))
          | _ => .ok none
      else if segment = [] then .ok none
      else
        match parseHexLoop 0 segment 0 with
        | none => .ok none
        | some value => do
          let groups ← storeGroup groups groupCount value
          match rest with
          | [] => .ok (some (groups, groupCount + 1, compressIndex))
          | _ :: [] => .ok none
          | _ :: next :: rest =>
            if next = ascii ':' then
              if compressIndex.isSome then .ok none
              else scanIpv6Array fuel groups (groupCount + 1) (some (groupCount + 1)) rest
            else scanIpv6Array fuel groups (groupCount + 1) compressIndex (next :: rest)

/-- The end of `multiaddr_parse_ipv6` (`multiaddr.c:481-523`) on the array. -/
def finishIpv6Array (groups : List Nat) (groupCount : Nat) (compressIndex : Option Nat) :
    Except IndexFault (Option Bytes) :=
  match compressIndex with
  | some index =>
    if 8 < groupCount then .ok none
    else do
      let groups ← shiftGroups index (8 - groupCount) groupCount groups
      let groups ← fillGroups index (8 - groupCount) 0 groups
      let out ← writeGroups groups 8 0
      .ok (some out)
  | none =>
    if groupCount ≠ 8 then .ok none
    else do
      let out ← writeGroups groups 8 0
      .ok (some out)

/-- `multiaddr_parse_ipv6` with its array of groups, where an index outside it is a fault. -/
def parseIpv6Array (text : Bytes) : Except IndexFault (Option Bytes) := do
  let groups := List.replicate 8 0
  let scanned ←
    match text with
    | [] => .ok none
    | first :: rest =>
      if first = ascii ':' then
        match rest with
        | [] => .ok none
        | second :: rest =>
          if second ≠ ascii ':' then .ok none
          else scanIpv6Array text.length groups 0 (some 0) rest
      else scanIpv6Array (text.length + 1) groups 0 none text
  match scanned with
  | none => .ok none
  | some (groups, groupCount, compressIndex) => finishIpv6Array groups groupCount compressIndex

/-- The array holds the groups read so far. -/
def HoldsGroups (array : List Nat) (groups : List Nat) : Prop :=
  array.length = 8 ∧ ∃ unused, array = groups ++ unused

theorem storeGroup_holds {array groups : List Nat} (h : HoldsGroups array groups)
    (hroom : groups.length < 8) (value : Nat) :
    ∃ array', storeGroup array groups.length value = .ok array' ∧
      HoldsGroups array' (groups ++ [value]) := by
  obtain ⟨hlen, unused, rfl⟩ := h
  rw [List.length_append] at hlen
  obtain ⟨old, unused, rfl⟩ := List.exists_cons_of_length_pos (by omega : 0 < unused.length)
  refine ⟨groups ++ value :: unused, ?_, by simpa using hlen, unused, by simp⟩
  rw [storeGroup, if_pos (by simp), List.set_append_right _ _ le_rfl, Nat.sub_self]
  rfl

/-- A scan of the array is the scan of the groups, without a fault. -/
theorem scanIpv6Array_scan (fuel : Nat) {array groups : List Nat} (h : HoldsGroups array groups)
    (compressIndex : Option Nat) (text : Bytes) :
    (scanIpv6Loop fuel groups compressIndex text = none →
      scanIpv6Array fuel array groups.length compressIndex text = .ok none) ∧
    (∀ result last, scanIpv6Loop fuel groups compressIndex text = some (result, last) →
      ∃ array', HoldsGroups array' result ∧
        scanIpv6Array fuel array groups.length compressIndex text =
          .ok (some (array', result.length, last))) := by
  induction fuel generalizing array groups compressIndex text with
  | zero => exact ⟨fun _ => rfl, fun _ _ h => by cases h⟩
  | succ fuel ih =>
    unfold scanIpv6Loop scanIpv6Array
    dsimp only
    by_cases hempty : text = []
    · rw [if_pos hempty, if_pos hempty]
      refine ⟨fun hnone => (by cases hnone), fun result last hsome => ?_⟩
      cases hsome
      exact ⟨array, h, rfl⟩
    rw [if_neg hempty, if_neg hempty]
    by_cases hroom : 8 ≤ groups.length
    · rw [if_pos hroom, if_pos hroom]
      exact ⟨fun _ => rfl, fun _ _ hsome => by cases hsome⟩
    rw [if_neg hroom, if_neg hroom]
    by_cases hdot : (text.dropWhile fun c => c ≠ ascii ':' ∧ c ≠ ascii '.').head? =
        some (ascii '.')
    · rw [if_pos hdot, if_pos hdot]
      by_cases hsix : 6 < groups.length
      · rw [if_pos hsix, if_pos hsix]
        exact ⟨fun _ => rfl, fun _ _ hsome => by cases hsome⟩
      rw [if_neg hsix, if_neg hsix]
      cases hread : parseIpv4 text with
      | none => exact ⟨fun _ => rfl, fun _ _ hsome => by cases hsome⟩
      | some value =>
        obtain ⟨octets, _, hlen, rfl⟩ := parseIpv4_iff.mp hread
        obtain ⟨a, b, c, d, rfl⟩ := List.length_eq_four.mp hlen
        obtain ⟨first, hfirst, hholds⟩ := storeGroup_holds h (by omega)
          ((UInt8.ofNat a).toNat <<< 8 ||| (UInt8.ofNat b).toNat)
        obtain ⟨second, hsecond, hholds⟩ := storeGroup_holds hholds
          (by rw [List.length_append, List.length_singleton]; omega)
          ((UInt8.ofNat c).toNat <<< 8 ||| (UInt8.ofNat d).toNat)
        rw [List.length_append, List.length_singleton] at hsecond
        rw [List.append_assoc, List.singleton_append] at hholds
        refine ⟨fun hnone => (by cases hnone), fun result last hsome => ?_⟩
        cases hsome
        refine ⟨second, hholds, ?_⟩
        change storeGroup array _ _ >>= _ = _
        rw [hfirst]
        change storeGroup first _ _ >>= _ = _
        rw [hsecond, List.length_append]
        rfl
    rw [if_neg hdot, if_neg hdot]
    by_cases hsegment : (text.takeWhile fun c => c ≠ ascii ':' ∧ c ≠ ascii '.') = []
    · rw [if_pos hsegment, if_pos hsegment]
      exact ⟨fun _ => rfl, fun _ _ hsome => by cases hsome⟩
    rw [if_neg hsegment, if_neg hsegment]
    cases parseHexLoop 0 (text.takeWhile fun c => c ≠ ascii ':' ∧ c ≠ ascii '.') 0 with
    | none => exact ⟨fun _ => rfl, fun _ _ hsome => by cases hsome⟩
    | some value =>
      dsimp only
      obtain ⟨next, hnext, hholds⟩ := storeGroup_holds h (by omega) value
      have hlen : (groups ++ [value]).length = groups.length + 1 := by simp
      rw [hnext, ← hlen]
      rcases text.dropWhile fun c => c ≠ ascii ':' ∧ c ≠ ascii '.' with
        _ | ⟨_, _ | ⟨c, rest⟩⟩
      · refine ⟨fun hnone => (by cases hnone), fun result last hsome => ?_⟩
        cases hsome
        exact ⟨next, hholds, rfl⟩
      · exact ⟨fun _ => rfl, fun _ _ hsome => by cases hsome⟩
      · dsimp only
        by_cases hcolon : c = ascii ':'
        · rw [if_pos hcolon]
          by_cases hsome : compressIndex.isSome
          · rw [if_pos hsome]
            refine ⟨fun _ => ?_, fun _ _ hsome => by cases hsome⟩
            change (if c = ascii ':' then _ else _) = _
            rw [if_pos hcolon, if_pos hsome]
          · rw [if_neg hsome]
            obtain ⟨hnone, hscan⟩ := ih hholds (some (groups ++ [value]).length) rest
            change (_ → (if c = ascii ':' then _ else _) = _) ∧ ∀ _ _, _ → ∃ _, _ ∧
              (if c = ascii ':' then _ else _) = _
            rw [if_pos hcolon, if_neg hsome]
            exact ⟨hnone, hscan⟩
        · rw [if_neg hcolon]
          obtain ⟨hnone, hscan⟩ := ih hholds compressIndex (c :: rest)
          change (_ → (if c = ascii ':' then _ else _) = _) ∧ ∀ _ _, _ → ∃ _, _ ∧
            (if c = ascii ':' then _ else _) = _
          rw [if_neg hcolon]
          exact ⟨hnone, hscan⟩

theorem readGroup_append (before : List Nat) (group : Nat) (after : List Nat) :
    readGroup (before ++ group :: after) before.length = .ok group := by
  rw [readGroup, List.getElem?_append_right le_rfl, Nat.sub_self]
  rfl

theorem storeGroup_append (before : List Nat) (old value : Nat) (after : List Nat) :
    storeGroup (before ++ old :: after) before.length value = .ok (before ++ value :: after) := by
  rw [storeGroup, if_pos (by simp), List.set_append_right _ _ le_rfl, Nat.sub_self]
  rfl

/-- The groups behind the `::` change places with the unused entries. -/
theorem shiftGroups_append (before front unused back : List Nat) :
    ∃ unused' : List Nat, unused'.length = unused.length ∧
      shiftGroups before.length unused.length (before.length + front.length)
        (before ++ front ++ unused ++ back) = .ok (before ++ unused' ++ front ++ back) := by
  induction front using List.reverseRecOn generalizing unused back with
  | nil =>
    refine ⟨unused, rfl, ?_⟩
    rw [List.append_nil, List.append_nil, List.length_nil, Nat.add_zero]
    cases before.length with
    | zero => rfl
    | succ n => rw [shiftGroups, if_pos le_rfl]
  | append_singleton front group ih =>
    have hne : group :: unused ≠ [] := by simp
    have hsplit := List.dropLast_append_getLast hne
    have hlen : ((group :: unused).dropLast).length = unused.length := by simp
    generalize (group :: unused).dropLast = moved at hsplit hlen
    generalize (group :: unused).getLast hne = old at hsplit
    have harray : before ++ (front ++ [group]) ++ unused ++ back =
        (before ++ front ++ moved) ++ old :: back := by
      have hback := congrArg (before ++ front ++ · ++ back) hsplit
      simpa using hback.symm
    have hread : readGroup (before ++ (front ++ [group]) ++ unused ++ back)
        (before.length + front.length) = .ok group := by
      have hread := readGroup_append (before ++ front) group (unused ++ back)
      rw [List.length_append] at hread
      simpa using hread
    have hstore := storeGroup_append (before ++ front ++ moved) old group back
    rw [List.length_append, List.length_append, hlen] at hstore
    obtain ⟨unused', hlen', hshift⟩ := ih moved (group :: back)
    refine ⟨unused', hlen'.trans hlen, ?_⟩
    rw [List.length_append, List.length_singleton, ← Nat.add_assoc, shiftGroups,
      if_neg (by omega), hread]
    change storeGroup _ _ _ >>= _ = _
    have hindex : before.length + front.length + 1 + unused.length - 1 =
        before.length + front.length + unused.length := by omega
    rw [harray, hindex, hstore]
    rw [hlen] at hshift
    refine hshift.trans ?_
    simp

theorem fillGroups_append (unused : List Nat) {index groupIndex : Nat} {before after : List Nat}
    (h : before.length = index + groupIndex) :
    fillGroups index unused.length groupIndex (before ++ unused ++ after) =
      .ok (before ++ List.replicate unused.length 0 ++ after) := by
  induction unused generalizing groupIndex before with
  | nil => rfl
  | cons old unused ih =>
    have hstore := storeGroup_append before old 0 (unused ++ after)
    rw [h] at hstore
    rw [List.length_cons, fillGroups, List.append_assoc, List.cons_append, hstore]
    have hnext := @ih (groupIndex + 1) (before ++ [0]) (by simp [h]; omega)
    change fillGroups _ _ _ _ = _
    rw [List.replicate_succ]
    simpa using hnext

theorem writeGroups_append (before groups : List Nat) :
    writeGroups (before ++ groups) groups.length before.length =
      .ok (groups.flatMap fun group =>
        [UInt8.ofNat (group >>> 8), UInt8.ofNat (group &&& 0xff)]) := by
  induction groups generalizing before with
  | nil => rfl
  | cons group groups ih =>
    have hnext := ih (before ++ [group])
    rw [List.append_assoc, List.singleton_append, List.length_append, List.length_singleton]
      at hnext
    rw [List.length_cons, writeGroups, readGroup_append]
    change writeGroups _ _ _ >>= _ = _
    rw [hnext]
    rfl

/-- The zeros are put in without a fault. -/
theorem finishIpv6Array_finish {array groups : List Nat} (h : HoldsGroups array groups)
    {compressIndex : Option Nat} (hindex : ∀ index ∈ compressIndex, index ≤ groups.length) :
    finishIpv6Array array groups.length compressIndex =
      .ok ((parseIpv6Finish groups compressIndex).map fun groups => groups.flatMap fun group =>
        [UInt8.ofNat (group >>> 8), UInt8.ofNat (group &&& 0xff)]) := by
  obtain ⟨hlen, unused, rfl⟩ := h
  rw [List.length_append] at hlen
  have hwrite : ∀ groups : List Nat, groups.length = 8 → writeGroups groups 8 0 =
      .ok (groups.flatMap fun group =>
        [UInt8.ofNat (group >>> 8), UInt8.ofNat (group &&& 0xff)]) := fun groups hgroups => by
    have hall := writeGroups_append [] groups
    rwa [hgroups] at hall
  cases compressIndex with
  | none =>
    unfold finishIpv6Array parseIpv6Finish
    dsimp only
    by_cases hfull : groups.length = 8
    · obtain rfl := List.length_eq_zero_iff.mp (by omega : unused.length = 0)
      rw [if_neg (not_not.mpr hfull), if_neg (not_not.mpr hfull), List.append_nil, hwrite _ hfull]
      rfl
    · rw [if_pos hfull, if_pos hfull]
      rfl
  | some index =>
    have hle := hindex index rfl
    have hfree : 8 - groups.length = unused.length := by omega
    obtain ⟨unused', hlen', hshift⟩ :=
      shiftGroups_append (groups.take index) (groups.drop index) unused []
    have htake : (groups.take index).length = index := by
      rw [List.length_take]
      omega
    have hall : index + (groups.drop index).length = groups.length := by
      rw [List.length_drop]
      omega
    rw [htake, hall, List.take_append_drop, List.append_nil, List.append_nil] at hshift
    have hfill := @fillGroups_append unused' index 0 (groups.take index) (groups.drop index)
      (by rw [htake, Nat.add_zero])
    rw [hlen'] at hfill
    unfold finishIpv6Array parseIpv6Finish
    dsimp only
    rw [if_neg (by omega), if_neg (by omega), hfree, hshift]
    change fillGroups _ _ _ _ >>= _ = _
    rw [hfill]
    change writeGroups _ _ _ >>= _ = _
    rw [hwrite _ (by simp only [List.length_append, List.length_replicate, htake]; omega)]
    rfl

/-- The scanner stays inside its array, and reads what the model on lists reads. -/
theorem parseIpv6Array_eq (text : Bytes) : parseIpv6Array text = .ok (parseIpv6 text) := by
  have hempty : HoldsGroups (List.replicate 8 0) [] := ⟨rfl, _, rfl⟩
  have hscan : (scanIpv6 text = none → parseIpv6Array text = .ok none) ∧
      ∀ result last, scanIpv6 text = some (result, last) → ∃ array, HoldsGroups array result ∧
        parseIpv6Array text = finishIpv6Array array result.length last := by
    unfold scanIpv6 parseIpv6Array
    rcases text with _ | ⟨first, rest⟩
    · exact ⟨fun _ => rfl, fun _ _ h => by cases h⟩
    dsimp only
    by_cases hfirst : first = ascii ':'
    · rw [if_pos hfirst, if_pos hfirst]
      rcases rest with _ | ⟨second, rest⟩
      · exact ⟨fun _ => rfl, fun _ _ h => by cases h⟩
      dsimp only
      by_cases hsecond : second ≠ ascii ':'
      · rw [if_pos hsecond, if_pos hsecond]
        exact ⟨fun _ => rfl, fun _ _ h => by cases h⟩
      rw [if_neg hsecond, if_neg hsecond]
      obtain ⟨hnone, hsome⟩ := scanIpv6Array_scan (first :: second :: rest).length hempty
        (some 0) rest
      dsimp only [List.length_nil] at hnone hsome
      refine ⟨fun h => by rw [hnone h]; rfl, fun result last h => ?_⟩
      obtain ⟨array, hholds, hrun⟩ := hsome result last h
      exact ⟨array, hholds, by rw [hrun]; rfl⟩
    · rw [if_neg hfirst, if_neg hfirst]
      obtain ⟨hnone, hsome⟩ := scanIpv6Array_scan ((first :: rest).length + 1) hempty none
        (first :: rest)
      dsimp only [List.length_nil] at hnone hsome
      refine ⟨fun h => by rw [hnone h]; rfl, fun result last h => ?_⟩
      obtain ⟨array, hholds, hrun⟩ := hsome result last h
      exact ⟨array, hholds, by rw [hrun]; rfl⟩
  rw [parseIpv6_scan]
  cases hcase : scanIpv6 text with
  | none => exact hscan.1 hcase
  | some scanned =>
    obtain ⟨result, last⟩ := scanned
    obtain ⟨array, hholds, hrun⟩ := hscan.2 result last hcase
    rw [hrun, Option.bind_some]
    refine finishIpv6Array_finish hholds fun index hindex => ?_
    rw [Option.mem_def] at hindex
    rw [hindex] at hcase
    obtain ⟨before, after, _, rfl, rfl, _⟩ := scanIpv6_compressed.mp hcase
    simp

/-! ## What is written -/

/-- A group in lower case without leading zeros. -/
structure LowerGroup (text : Bytes) (group : Nat) : Prop where
  group : HexGroup text group
  lower : ∀ c ∈ text, c ∈ hexDigits
  leading : text.head? = some (ascii '0') → text = [ascii '0']

/-- The first one of the longest runs of two zero groups or more. -/
structure FirstLongestRun (groups : List Nat) (run : Nat × Nat) : Prop where
  zeros : ZeroRun groups run
  two : 2 ≤ run.2
  longest : ∀ other, ZeroRun groups other → other.2 ≤ run.2
  first : ∀ other, ZeroRun groups other → other.2 = run.2 → run.1 ≤ other.1

/-- The text of eight groups, with the first longest run of zeros as `::`. -/
inductive WrittenText (groups : List Nat) : Bytes → Prop
  | full {text : Bytes} : (∀ run, ZeroRun groups run → run.2 < 2) →
      Separated LowerGroup (ascii ':') text groups → WrittenText groups text
  | compressed {run : Nat × Nat} {pre post : Bytes} : FirstLongestRun groups run →
      Maybe (Separated LowerGroup (ascii ':')) pre (groups.take run.1) →
      Maybe (Separated LowerGroup (ascii ':')) post (groups.drop (run.1 + run.2)) →
      WrittenText groups (pre ++ ascii ':' :: ascii ':' :: post)

theorem digitLoop_last {base fuel n : Nat} (h : n < base ^ (fuel + 1)) :
    digitLoop base fuel n = [0] ∨ ∃ d ds, digitLoop base fuel n = ds ++ [d] ∧ d ≠ 0 := by
  induction fuel generalizing n with
  | zero =>
    rw [digitLoop]
    by_cases hzero : n % base = 0
    · exact .inl (by rw [hzero])
    · exact .inr ⟨n % base, [], rfl, hzero⟩
  | succ fuel ih =>
    rw [digitLoop]
    split
    · by_cases hzero : n % base = 0
      · exact .inl (by rw [hzero])
      · exact .inr ⟨n % base, [], rfl, hzero⟩
    · rename_i hdiv
      obtain hloop | ⟨d, ds, hloop, hd⟩ := ih (Nat.div_lt_of_lt_mul (by rwa [pow_succ'] at h))
      · -- the digits have the value of the number, which is not zero
        have hvalue := value_digitLoop (Nat.div_lt_of_lt_mul (by rwa [pow_succ'] at h) :
          n / base < base ^ (fuel + 1))
        have hzero : Radix.value base [0].reverse = 0 := by simp [Radix.value]
        rw [hloop, hzero] at hvalue
        exact absurd hvalue.symm hdiv
      · exact .inr ⟨d, n % base :: ds, by rw [hloop]; rfl, hd⟩

theorem writeHexGroup_lower {group : Nat} (h : group < 2 ^ 16) :
    LowerGroup (writeHexGroup group) group where
  group := parseHexLoop_group.mp ⟨writeHexGroup_ne_nil group, parseHexLoop_write h⟩
  lower _ hc := writeHexGroup_mem hc
  leading := by
    have hall : ∀ d : Fin 16, hexDigits.getD d 0 = ascii '0' → d.val = 0 := by decide
    unfold writeHexGroup
    obtain hloop | ⟨d, ds, hloop, hd⟩ := digitLoop_last (show group < 16 ^ (3 + 1) from h)
    · intro _
      rw [hloop]
      rfl
    · have hlt := digitLoop_lt (by decide : 0 < 16) 3 group d (by rw [hloop]; simp)
      intro hhead
      rw [hloop] at hhead
      simp only [List.reverse_append, List.reverse_singleton, List.singleton_append,
        List.map_cons, List.head?_cons, Option.some.injEq] at hhead
      exact absurd (hall ⟨d, hlt⟩ hhead) hd

theorem colonJoin_separated {groups : List Nat} (hgroups : ∀ g ∈ groups, g < 2 ^ 16) :
    Maybe (Separated LowerGroup (ascii ':')) (colonJoin false groups) groups := by
  induction groups with
  | nil => exact .inl ⟨rfl, rfl⟩
  | cons group groups ih =>
    rw [List.forall_mem_cons] at hgroups
    have hgroup := writeHexGroup_lower hgroups.1
    refine .inr ?_
    cases groups with
    | nil =>
      have htext : colonJoin false [group] = writeHexGroup group := by simp [colonJoin]
      rw [htext]
      exact .last hgroup
    | cons next groups =>
      have htext : colonJoin false (group :: next :: groups) =
          writeHexGroup group ++ ascii ':' :: colonJoin false (next :: groups) := by
        simp [colonJoin]
      obtain ⟨_, hempty⟩ | hrest := ih hgroups.2
      · cases hempty
      · rw [htext]
        exact .cons hgroup hrest

/-- The best run and the current one among the groups before an index. -/
structure BestSoFar (groups : List Nat) (index : Nat) (best current : Nat × Nat) : Prop where
  /-- The best run has ended when the current one starts. -/
  apart : current.2 ≠ 0 → best.1 + best.2 ≤ current.1
  /-- A run that ends at the index is in the current one. -/
  ends : ∀ run, ZeroRun groups run → run.2 ≠ 0 → run.1 + run.2 = index →
    current.2 ≠ 0 ∧ current.1 ≤ run.1
  /-- Any other run is in the current one, or no better than the best one. -/
  better : ∀ run, ZeroRun groups run → run.2 ≠ 0 → run.1 + run.2 ≤ index →
    (current.2 ≠ 0 ∧ current.1 ≤ run.1) ∨
      (run.2 ≤ best.2 ∧ (run.2 = best.2 → best.1 ≤ run.1))

/-- The better one of the two is the first longest run so far. -/
theorem BestSoFar.merge {groups : List Nat} {index : Nat} {best current : Nat × Nat}
    (h : BestSoFar groups index best current) (hbest : best.1 + best.2 ≤ index)
    (hcurrent : current.2 ≠ 0 → current.1 + current.2 = index) {run : Nat × Nat}
    (hrun : ZeroRun groups run) (hne : run.2 ≠ 0) (hend : run.1 + run.2 ≤ index) :
    run.2 ≤ (if best.2 < current.2 then current else best).2 ∧
      (run.2 = (if best.2 < current.2 then current else best).2 →
        (if best.2 < current.2 then current else best).1 ≤ run.1) := by
  have happart := h.apart
  split
  · have hhere := hcurrent (by omega)
    obtain ⟨_, hin⟩ | ⟨hle, _⟩ := h.better run hrun hne hend <;> omega
  · obtain ⟨hcur, hin⟩ | ⟨hle, hfirst⟩ := h.better run hrun hne hend
    · have hhere := hcurrent hcur
      have := happart hcur
      omega
    · exact ⟨hle, hfirst⟩

/-- The search finds the first longest run. -/
theorem bestRunLoop_first {groups done left : List Nat} (hgroups : groups = done ++ left)
    {best current : Nat × Nat} (h : BestSoFar groups done.length best current)
    (hbest : best.1 + best.2 ≤ done.length)
    (hcurrent : current.2 ≠ 0 → current.1 + current.2 = done.length) {run : Nat × Nat}
    (hrun : ZeroRun groups run) (hne : run.2 ≠ 0) :
    run.2 ≤ (bestRunLoop left done.length best current).2 ∧
      (run.2 = (bestRunLoop left done.length best current).2 →
        (bestRunLoop left done.length best current).1 ≤ run.1) := by
  induction left generalizing done best current with
  | nil =>
    unfold bestRunLoop
    rw [List.append_nil] at hgroups
    exact h.merge hbest hcurrent hrun hne (by rw [← hgroups]; exact hrun.1)
  | cons group left ih =>
    have hnext : groups = (done ++ [group]) ++ left := by rw [hgroups]; simp
    have hlen : (done ++ [group]).length = done.length + 1 := by simp
    have hhere : groups[done.length]? = some group := by
      rw [hgroups, List.getElem?_append_right le_rfl, Nat.sub_self]
      rfl
    unfold bestRunLoop
    rw [← hlen]
    have happart := h.apart
    split
    · -- the current run goes on, or starts here
      have hends : ∀ other, ZeroRun groups other → other.2 ≠ 0 →
          other.1 + other.2 = done.length + 1 →
          (if current.2 = 0 then done.length else current.1) ≤ other.1 := by
        intro other hother hother0 hend
        have hshort : ZeroRun groups (other.1, other.2 - 1) :=
          ⟨by have := hother.1; dsimp only; omega,
            fun i hi hi' => hother.2 i hi (by dsimp only at hi'; omega)⟩
        by_cases hone : other.2 = 1
        · split
          · omega
          · have := hcurrent (by omega)
            omega
        · obtain ⟨hcur, hin⟩ := h.ends _ hshort (by dsimp only; omega) (by dsimp only; omega)
          rw [if_neg hcur]
          exact hin
      refine ih hnext ?_ (by omega) (by dsimp only; split <;> omega)
      rw [hlen]
      refine ⟨?_, fun other hother hother0 hend => ⟨by simp, hends other hother hother0 hend⟩,
        fun other hother hother0 hend => ?_⟩
      · dsimp only
        split <;> omega
      · rcases Nat.lt_or_eq_of_le hend with hlt | heq
        · obtain ⟨hcur, hin⟩ | hold := h.better other hother hother0 (by omega)
          · exact .inl ⟨by simp, by dsimp only; rw [if_neg hcur]; exact hin⟩
          · exact .inr hold
        · exact .inl ⟨by simp, hends other hother hother0 heq⟩
    · -- no run goes past this group
      rename_i hgroup
      have hstop : ∀ other, ZeroRun groups other → other.1 + other.2 ≤ done.length + 1 →
          other.2 ≠ 0 → other.1 + other.2 ≤ done.length := fun other hother hend hother0 => by
        by_contra hpast
        have hzero := hother.2 done.length (by omega) (by omega)
        rw [hhere] at hzero
        exact hgroup (Option.some.inj hzero)
      refine ih hnext ?_ ?_ fun hcur => absurd rfl hcur
      · rw [hlen]
        refine ⟨fun hcur => absurd rfl hcur, fun other hother hother0 hend => ?_,
          fun other hother hother0 hend => ?_⟩
        · have := hstop other hother (by omega) hother0
          omega
        · exact .inr (h.merge hbest hcurrent hother hother0 (hstop other hother hend hother0))
      · rw [hlen]
        split
        · have := hcurrent (by omega)
          omega
        · omega

theorem bestRun_first (groups : List Nat) :
    ((bestRun groups).2 = 0 ∧ ∀ run, ZeroRun groups run → run.2 < 2) ∨
      FirstLongestRun groups (bestRun groups) := by
  have hzeros := bestRun_zeroRun groups
  have hstart : BestSoFar groups ([] : List Nat).length (0, 0) (0, 0) :=
    ⟨fun h => absurd rfl h, fun run _ hne hend => by rw [List.length_nil] at hend; omega,
      fun run _ hne hend => by rw [List.length_nil] at hend; omega⟩
  have hfirst := @bestRunLoop_first groups [] groups rfl (0, 0) (0, 0) hstart le_rfl
    fun h => absurd rfl h
  rw [List.length_nil] at hfirst
  unfold bestRun at hzeros ⊢
  dsimp only at hzeros ⊢
  split
  · rename_i hshort
    refine .inl ⟨rfl, fun run hrun => ?_⟩
    by_cases hne : run.2 = 0
    · omega
    · have := (hfirst hrun hne).1
      omega
  · rename_i hlong
    rw [if_neg hlong] at hzeros
    refine .inr ⟨hzeros, by omega, fun other hother => ?_, fun other hother heq => ?_⟩
    · by_cases hne : other.2 = 0
      · omega
      · exact (hfirst hother hne).1
    · exact (hfirst hother (by omega)).2 heq

theorem writeIpv6_written {value : Bytes} (h : value.length = 16) :
    WrittenText (ipv6Groups value) (writeIpv6 value) := by
  obtain ⟨hlen, _⟩ := ipv6Groups_length 8 h
  have hlt := ipv6Groups_lt value
  unfold writeIpv6
  dsimp only
  generalize ipv6Groups value = groups at hlen hlt
  obtain ⟨hzero, hshort⟩ | hrun := bestRun_first groups
  · rw [writeIpv6Loop_join hlen (.inl hzero) (by omega), List.drop_zero]
    obtain ⟨_, hempty⟩ | htext := colonJoin_separated hlt
    · rw [hempty] at hlen
      cases hlen
    · exact .full hshort htext
  · have hfits := hrun.zeros.1
    have htwo := hrun.two
    rw [writeIpv6Loop_run hlen (by omega) (by omega) (Nat.zero_le _) (by omega), List.drop_zero]
    exact .compressed hrun
      (colonJoin_separated fun g hg => hlt g (List.mem_of_mem_take hg))
      (colonJoin_separated fun g hg => hlt g (List.mem_of_mem_drop hg))

/-! ## Reading and writing -/

/-- What is said of IPv6 texts, for a text that is read and an address that is written. -/
structure Ipv6Conforms (text value : Bytes) : Prop where
  /-- Exactly the texts of the grammar are accepted, with the bytes they denote. -/
  read : ∀ result, parseIpv6 text = some result ↔
    ∃ groups, Ipv6Text text groups ∧ result = groupBytes groups
  /-- No index is outside the array. -/
  bounds : parseIpv6Array text = .ok (parseIpv6 text)
  /-- An address is written with the first longest run of zeros left out, and read back. -/
  written : value.length = 16 → WrittenText (ipv6Groups value) (writeIpv6 value) ∧
    parseIpv6 (writeIpv6 value) = some value

/-- The texts are right but for those with a `::` that stands for no group. -/
theorem ipv6Conforms_iff (text value : Bytes) : Ipv6Conforms text value ↔ ¬ SurplusText text := by
  constructor
  · intro h hsurplus
    obtain ⟨before, after, htext, hlen⟩ := hsurplus
    have haccepted := parseIpv6_iff.mpr (.inr ⟨before, after, htext, hlen, rfl⟩)
    obtain ⟨groups, hgrammar, _⟩ := (h.read _).mp haccepted
    exact SurplusText.not_ipv6Text ⟨before, after, htext, hlen⟩ groups hgrammar
  · intro h
    refine ⟨fun result => ?_, parseIpv6Array_eq text, fun hvalue =>
      ⟨writeIpv6_written hvalue, parseIpv6_write hvalue⟩⟩
    rw [parseIpv6_iff]
    constructor
    · intro hread
      obtain hgrammar | ⟨before, after, htext, hlen, _⟩ := hread
      · exact hgrammar
      · exact absurd ⟨before, after, htext, hlen⟩ h
    · exact .inl

/-- `1::2:3:4:5:6:7:8` is accepted. -/
theorem not_ipv6Conforms_surplus : ¬ Ipv6Conforms (List.map ascii
    ['1', ':', ':', '2', ':', '3', ':', '4', ':', '5', ':', '6', ':', '7', ':', '8']) [] := by
  have hscan : scanIpv6 (List.map ascii
      ['1', ':', ':', '2', ':', '3', ':', '4', ':', '5', ':', '6', ':', '7', ':', '8']) =
        some ([1, 2, 3, 4, 5, 6, 7, 8], some 1) := by decide
  obtain ⟨before, after, htext, hgroups, _, _⟩ := scanIpv6_compressed.mp hscan
  have hlen : before.length + after.length = 8 := by rw [← List.length_append, ← hgroups]; rfl
  have haccepted := parseIpv6_iff.mpr (.inr ⟨before, after, htext, hlen, rfl⟩)
  intro h
  obtain ⟨groups, hgrammar, _⟩ := (h.read _).mp haccepted
  exact SurplusText.not_ipv6Text ⟨before, after, htext, hlen⟩ groups hgrammar

end LeanLibp2p
