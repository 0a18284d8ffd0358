import ProRLAgent.Basic
import ProRLAgent.Lib.Blocks
import ProRLAgent.Lib.Dict
import ProRLAgent.Lib.Except
import ProRLAgent.Lib.Replace
import ProRLAgent.Lib.Slices

set_option relaxedAutoImplicit false
set_option autoImplicit false

/-!
# Assigning LLM servers to agent servers

The rollout (`verl_custom/nvidia/rollout/async_server.py`) gives every agent server the LLM
addresses on its own IP. A server with fewer than `n_gpus_per_node // tensor_model_parallel_size`
of them is topped up from the list of all addresses, at a running pointer. Then the addresses on no
server's IP are distributed in even shares.

The pointer is advanced by an amount that is computed after the list has grown, which is zero: every
top-up starts at the first address. And a topped-up address still counts as not used, so it is
distributed again.

## Main definitions

* `ProRLAgent.Rollout.assignLlmAddressesToOpenhands` — the assignment.
* `ProRLAgent.Rollout.CompleteAndEven` — what the assignment is for.
* `ProRLAgent.Rollout.TopUpsFit` — the top-ups collide with nothing.

## Main results

* `ProRLAgent.Rollout.completeAndEven_iff` — when the assignment is complete and even.
-/

namespace ProRLAgent.Rollout

/-! ## The assignment -/

/-- The IP of a URL: without the protocol, up to the first colon. -/
def urlToIp (url : String) : String :=
  let url := Replace.replaceAll "https://".toList []
    (Replace.replaceAll "http://".toList [] url.toList)
  String.ofList (url.takeWhile (· ≠ ':'))

/-- The state of the first loop. -/
structure PhaseOne where
  addressAssignments : Dict String (List String)
  usedAddresses : List String
  recurrentPointer : ℤ

/-- The addresses of one server and the pointer after it. -/
def topUp (serverAddresses assignedAddresses : List String) (numLlmServersPerOpenhands : ℕ)
    (recurrentPointer : ℤ) : List String × ℤ :=
  let missing := fun assigned : List String => (numLlmServersPerOpenhands : ℤ) - assigned.length
  if 0 < missing assignedAddresses then
    if recurrentPointer + missing assignedAddresses > serverAddresses.length then
      let assigned := assignedAddresses ++ Slices.slice serverAddresses (some recurrentPointer) none
      let assigned := assigned ++ Slices.slice serverAddresses (some 0) (some (missing assigned))
      (assigned, missing assigned)
    else
      let assigned := assignedAddresses ++ Slices.slice serverAddresses (some recurrentPointer)
        (some (recurrentPointer + missing assignedAddresses))
      -- The list has grown, so nothing is missing any more.
      (assigned, recurrentPointer + missing assigned)
  else (assignedAddresses, recurrentPointer)

/-- The addresses on the IP of a server. -/
def localAddresses (serverAddresses : List String) (openhandsUrl : String) : List String :=
  serverAddresses.filter fun address => urlToIp address = urlToIp openhandsUrl

/-- The body of the first loop. -/
def phaseOneStep (serverAddresses : List String) (numLlmServersPerOpenhands : ℕ) (s : PhaseOne)
    (openhandsUrl : String) : PhaseOne :=
  let sameIp := localAddresses serverAddresses openhandsUrl
  let assigned := topUp serverAddresses sameIp numLlmServersPerOpenhands s.recurrentPointer
  ⟨s.addressAssignments.set openhandsUrl assigned.1, s.usedAddresses ++ sameIp, assigned.2⟩

/-- The state of the second loop. -/
structure PhaseTwo where
  addressAssignments : Dict String (List String)
  addrIndex : ℕ

/-- The body of the inner loop: one more of the remaining addresses, if there is one. -/
def takeOne (remaining : List String) (s : List String × ℕ) : List String × ℕ :=
  match remaining[s.2]? with
  | some address => (s.1 ++ [address], s.2 + 1)
  | none => s

/-- The body of the second loop for server `i`. -/
def phaseTwoStep (remaining : List String) (numOpenhands : ℕ) (s : PhaseTwo)
    (server : String × ℕ) : PhaseTwo :=
  let additionalPerOpenhands := remaining.length / numOpenhands
  let remainder := remaining.length % numOpenhands
  let numAdditional := additionalPerOpenhands + if server.2 < remainder then 1 else 0
  let taken := (List.range numAdditional).foldl (fun taken _ => takeOne remaining taken)
    ((s.addressAssignments.get? server.1).getD [], s.addrIndex)
  ⟨s.addressAssignments.set server.1 taken.1, taken.2⟩

/-- The function `assign_llm_addresses_to_openhands`. -/
def assignLlmAddressesToOpenhands (openhandsUrls serverAddresses : List String)
    (nGpusPerNode tensorModelParallelSize : ℕ) : Except PyError (Dict String (List String)) := do
  if openhandsUrls ≠ [] ∧ tensorModelParallelSize = 0 then
    throw (.other "integer division or modulo by zero")
  let one := openhandsUrls.foldl
    (phaseOneStep serverAddresses (nGpusPerNode / tensorModelParallelSize)) ⟨Dict.empty, [], 0⟩
  let remaining := serverAddresses.filter fun address => address ∉ one.usedAddresses
  if remaining = [] then
    return one.addressAssignments
  if openhandsUrls = [] then
    throw (.other "integer division or modulo by zero")
  return (openhandsUrls.zipIdx.foldl (phaseTwoStep remaining openhandsUrls.length)
    ⟨one.addressAssignments, 0⟩).addressAssignments

/-! ## What the assignment is for -/

/-- The addresses of a server. -/
def addressesOf (assignments : Dict String (List String)) (openhandsUrl : String) : List String :=
  (assignments.get? openhandsUrl).getD []

/-- The number of servers that an address is assigned to. -/
def serverCount (openhandsUrls : List String) (assignments : Dict String (List String))
    (address : String) : ℕ :=
  openhandsUrls.countP fun url => decide (address ∈ addressesOf assignments url)

/-- **Complete and even**: every address has a server, no server has an address twice, every server
has the addresses on its IP, and if no address is on a server's IP, the numbers of servers of any
two addresses differ by at most one. -/
structure CompleteAndEven (openhandsUrls serverAddresses : List String)
    (assignments : Dict String (List String)) : Prop where
  complete : ∀ address ∈ serverAddresses, ∃ url ∈ openhandsUrls,
    address ∈ addressesOf assignments url
  nodup : ∀ url ∈ openhandsUrls, (addressesOf assignments url).Nodup
  sameIp : ∀ url ∈ openhandsUrls, ∀ address ∈ serverAddresses, urlToIp address = urlToIp url →
    address ∈ addressesOf assignments url
  even : (∀ url ∈ openhandsUrls, ∀ address ∈ serverAddresses, urlToIp address ≠ urlToIp url) →
    ∀ a ∈ serverAddresses, ∀ b ∈ serverAddresses,
      serverCount openhandsUrls assignments a ≤ serverCount openhandsUrls assignments b + 1

/-- The addresses that are on no server's IP. -/
def remainingAddresses (openhandsUrls serverAddresses : List String) : List String :=
  serverAddresses.filter fun address => ∀ url ∈ openhandsUrls, urlToIp address ≠ urlToIp url

/-- The number of addresses that a server has too few of on its IP. -/
def shortfall (serverAddresses : List String) (numLlmServersPerOpenhands : ℕ)
    (openhandsUrl : String) : ℕ :=
  numLlmServersPerOpenhands - (localAddresses serverAddresses openhandsUrl).length

/-- **The top-ups fit**: there are as many addresses as a server has too few of, and none of that
many first addresses is on its IP or in its even share of the addresses on no server's IP. -/
def TopUpsFit (openhandsUrls serverAddresses : List String) (numLlmServersPerOpenhands : ℕ) :
    Prop :=
  serverAddresses = [] ∨ ∀ i url, openhandsUrls[i]? = some url →
    shortfall serverAddresses numLlmServersPerOpenhands url ≤ serverAddresses.length ∧
      ∀ address ∈ serverAddresses.take (shortfall serverAddresses numLlmServersPerOpenhands url),
        urlToIp address ≠ urlToIp url ∧
          address ∉ Blocks.share (remainingAddresses openhandsUrls serverAddresses)
            openhandsUrls.length i

variable {openhandsUrls serverAddresses : List String} {per : ℕ}

/-! ## One top-up -/

/-- A top-up at the first address, when there are enough: the pointer stays. -/
lemma topUp_eq {sameIp : List String} (h : per - sameIp.length ≤ serverAddresses.length) :
    topUp serverAddresses sameIp per 0 =
      (sameIp ++ serverAddresses.take (per - sameIp.length), 0) := by
  simp only [topUp]
  by_cases hle : per ≤ sameIp.length
  · have hzero : per - sameIp.length = 0 := by omega
    rw [if_neg (by omega), hzero, List.take_zero, List.append_nil]
  · have hslice : Slices.slice serverAddresses (some 0) (some (0 + ((per : ℤ) - sameIp.length))) =
        serverAddresses.take (per - sameIp.length) := by
      have hbound : (0 : ℤ) + ((per : ℤ) - sameIp.length) = ((per - sameIp.length : ℕ) : ℤ) := by
        omega
      rw [hbound, Slices.slice_zero_natCast]
    have hpointer : (0 : ℤ) + ((per : ℤ) - (sameIp ++
        serverAddresses.take (per - sameIp.length)).length) = 0 := by
      rw [List.length_append, List.length_take, Nat.min_eq_left h]
      omega
    rw [if_pos (by omega), if_neg (by omega), hslice, hpointer]

/-- **A top-up that wraps around** from the first address takes an address twice. -/
lemma not_nodup_topUp {sameIp : List String} (hne : serverAddresses ≠ [])
    (h : serverAddresses.length < per - sameIp.length) :
    ¬ (topUp serverAddresses sameIp per 0).1.Nodup := by
  obtain ⟨first, rest, rfl⟩ := List.exists_cons_of_ne_nil hne
  have hmissing : ∃ n : ℕ, (per : ℤ) - (sameIp ++ first :: rest).length = (n + 1 : ℕ) :=
    ⟨per - sameIp.length - (first :: rest).length - 1, by
      rw [List.length_append]
      omega⟩
  obtain ⟨n, hn⟩ := hmissing
  simp only [topUp]
  rw [if_pos (by omega), if_pos (by omega), Slices.slice_zero_none, hn, Slices.slice_zero_natCast,
    List.take_succ_cons]
  intro hnodup
  have htwice := (List.nodup_append.mp (List.append_assoc _ _ _ ▸ hnodup)).2.1
  exact (List.nodup_append.mp htwice).2.2 first List.mem_cons_self first List.mem_cons_self rfl

/-- Without addresses nobody is topped up. -/
lemma topUp_nil (url : String) (per : ℕ) (recurrentPointer : ℤ) :
    (topUp [] (localAddresses [] url) per recurrentPointer).1 = [] := by
  have hslice : ∀ start stop, Slices.slice ([] : List String) start stop = [] := by
    simp [Slices.slice]
  simp only [topUp, localAddresses, List.filter_nil, hslice, List.append_nil]
  split_ifs <;> rfl

/-! ## The first loop -/

/-- The state after the first loop over some servers. -/
def phaseOne (serverAddresses : List String) (per : ℕ) (urls : List String) : PhaseOne :=
  urls.foldl (phaseOneStep serverAddresses per) ⟨Dict.empty, [], 0⟩

lemma phaseOne_concat (urls : List String) (url : String) :
    phaseOne serverAddresses per (urls ++ [url]) =
      phaseOneStep serverAddresses per (phaseOne serverAddresses per urls) url := by
  simp [phaseOne]

/-- The used addresses are those on the IP of a server. -/
lemma mem_usedAddresses {urls : List String} {address : String} :
    address ∈ (phaseOne serverAddresses per urls).usedAddresses ↔
      address ∈ serverAddresses ∧ ∃ url ∈ urls, urlToIp address = urlToIp url := by
  induction urls using List.reverseRecOn with
  | nil => simp [phaseOne]
  | append_singleton urls url ih =>
    rw [phaseOne_concat, phaseOneStep, List.mem_append, ih, localAddresses, List.mem_filter]
    simp only [decide_eq_true_eq, List.mem_append, List.mem_singleton, or_and_right, exists_or,
      exists_eq_left, and_or_left]

/-- The addresses of a server after the first loop come from its own pass. -/
lemma get?_phaseOne (serverAddresses : List String) (per : ℕ) {before after : List String}
    {url : String} (hnodup : (before ++ url :: after).Nodup) :
    (phaseOne serverAddresses per (before ++ url :: after)).addressAssignments.get? url =
      some (topUp serverAddresses (localAddresses serverAddresses url) per
        (phaseOne serverAddresses per before).recurrentPointer).1 := by
  induction after using List.reverseRecOn with
  | nil => rw [phaseOne_concat, phaseOneStep, Dict.get?_set, if_pos rfl]
  | append_singleton after last ih =>
    rw [← List.cons_append, ← List.append_assoc] at hnodup ⊢
    have hlast : url ≠ last := fun heq =>
      (List.nodup_append.mp hnodup).2.2 url (by simp) last (by simp) heq
    rw [phaseOne_concat, phaseOneStep, Dict.get?_set, if_neg hlast]
    exact ih (List.nodup_append.mp hnodup).1

/-- **The pointer never moves** as long as there are enough addresses. -/
lemma recurrentPointer_phaseOne {urls : List String}
    (h : ∀ url ∈ urls, shortfall serverAddresses per url ≤ serverAddresses.length) :
    (phaseOne serverAddresses per urls).recurrentPointer = 0 := by
  induction urls using List.reverseRecOn with
  | nil => rfl
  | append_singleton urls url ih =>
    have hpointer := ih fun other hother => h other (by simp [hother])
    rw [phaseOne_concat, phaseOneStep, hpointer, topUp_eq (h url (by simp))]

/-! ## The second loop -/

/-- The inner loop takes the next addresses. -/
lemma foldl_takeOne {remaining : List String} (n : ℕ) {l : List String} {i : ℕ}
    (h : i + n ≤ remaining.length) :
    (List.range n).foldl (fun taken _ => takeOne remaining taken) (l, i) =
      (l ++ (remaining.drop i).take n, i + n) := by
  induction n with
  | zero => simp
  | succ n ih =>
    have hi : i + n < remaining.length := by omega
    rw [List.range_succ, List.foldl_append, ih (by omega), List.foldl_cons, List.foldl_nil,
      takeOne, List.getElem?_eq_getElem hi, List.take_add_one, List.getElem?_drop,
      List.getElem?_eq_getElem hi, ← List.append_assoc]
    rfl

/-- **After the second loop** over some servers, each of them has its share. -/
lemma phaseTwo_spec {remaining : List String} {m : ℕ} {assignments : Dict String (List String)}
    {urls : List String} (hnodup : urls.Nodup) (hlen : urls.length ≤ m) :
    (urls.zipIdx.foldl (phaseTwoStep remaining m) ⟨assignments, 0⟩).addrIndex =
        Blocks.shareStart remaining.length m urls.length ∧
      (∀ i url, urls[i]? = some url →
        (urls.zipIdx.foldl (phaseTwoStep remaining m)
          ⟨assignments, 0⟩).addressAssignments.get? url =
          some (addressesOf assignments url ++ Blocks.share remaining m i)) ∧
      ∀ url ∉ urls,
        (urls.zipIdx.foldl (phaseTwoStep remaining m)
          ⟨assignments, 0⟩).addressAssignments.get? url =
          assignments.get? url := by
  induction urls using List.reverseRecOn with
  | nil => exact ⟨by simp [Blocks.shareStart], by simp, fun _ _ => rfl⟩
  | append_singleton urls url ih =>
    rw [List.length_append, List.length_singleton] at hlen
    obtain ⟨hurls, -, hnew⟩ := List.nodup_append.mp hnodup
    obtain ⟨hindex, hshares, hothers⟩ := ih hurls (by omega)
    have hurl : url ∉ urls := fun hmem => hnew url hmem url (by simp) rfl
    have hroom : Blocks.shareStart remaining.length m urls.length +
        Blocks.shareSize remaining.length m urls.length ≤ remaining.length := by
      rw [← Blocks.shareStart_succ]
      exact (Blocks.shareStart_mono _ _ hlen).trans_eq (Blocks.shareStart_self (by omega) _)
    rw [List.zipIdx_append, List.foldl_append, Nat.zero_add]
    simp only [List.zipIdx_singleton, List.foldl_cons, List.foldl_nil]
    rw [phaseTwoStep]
    simp only [hindex, hothers url hurl]
    rw [show remaining.length / m + (if urls.length < remaining.length % m then 1 else 0) =
      Blocks.shareSize remaining.length m urls.length from rfl, foldl_takeOne _ hroom]
    refine ⟨?_, fun i other hi => ?_, fun other hother => ?_⟩
    · rw [List.length_append, List.length_singleton, Blocks.shareStart_succ]
    · rw [Dict.get?_set]
      rcases Nat.lt_or_ge i urls.length with hlt | hge
      · rw [List.getElem?_append_left hlt] at hi
        have hne : other ≠ url := fun heq => hurl (heq ▸ List.mem_of_getElem? hi)
        rw [if_neg hne, hshares i other hi]
      · rw [List.getElem?_append_right hge] at hi
        have hi0 : i - urls.length = 0 := by
          have := (List.getElem?_eq_some_iff.mp hi).1
          simp at this
          omega
        obtain rfl : url = other := by simpa [hi0] using hi
        obtain rfl : i = urls.length := by omega
        rw [if_pos rfl]
        rfl
    · rw [Dict.get?_set, if_neg fun heq => hother (by simp [heq])]
      exact hothers other fun hmem => hother (by simp [hmem])

/-! ## The whole assignment -/

/-- The addresses that no pass of the first loop uses. -/
lemma filter_usedAddresses (openhandsUrls serverAddresses : List String) (per : ℕ) :
    (serverAddresses.filter fun address =>
        address ∉ (phaseOne serverAddresses per openhandsUrls).usedAddresses) =
      remainingAddresses openhandsUrls serverAddresses := by
  refine List.filter_congr fun address haddress => ?_
  simp [mem_usedAddresses, haddress]

/-- **The addresses of a server**: those of its pass of the first loop and its share. -/
lemma exists_assignments (serverAddresses : List String) (nGpusPerNode : ℕ)
    {tensorModelParallelSize : ℕ} (hparallel : 1 ≤ tensorModelParallelSize)
    (hne : openhandsUrls ≠ [])
    (hurls : openhandsUrls.Nodup) :
    ∃ assignments, assignLlmAddressesToOpenhands openhandsUrls serverAddresses nGpusPerNode
        tensorModelParallelSize = .ok assignments ∧
      ∀ i url, openhandsUrls[i]? = some url → addressesOf assignments url =
        (topUp serverAddresses (localAddresses serverAddresses url)
            (nGpusPerNode / tensorModelParallelSize)
            (phaseOne serverAddresses (nGpusPerNode / tensorModelParallelSize)
              (openhandsUrls.take i)).recurrentPointer).1 ++
          Blocks.share (remainingAddresses openhandsUrls serverAddresses)
            openhandsUrls.length i := by
  set per := nGpusPerNode / tensorModelParallelSize with hper
  have hfirst : ∀ i url, openhandsUrls[i]? = some url →
      addressesOf (phaseOne serverAddresses per openhandsUrls).addressAssignments url =
        (topUp serverAddresses (localAddresses serverAddresses url) per
          (phaseOne serverAddresses per (openhandsUrls.take i)).recurrentPointer).1 := by
    intro i url hi
    obtain ⟨hlt, hget⟩ := List.getElem?_eq_some_iff.mp hi
    have hsplit : openhandsUrls = openhandsUrls.take i ++ url :: openhandsUrls.drop (i + 1) := by
      rw [← hget, ← List.drop_eq_getElem_cons hlt, List.take_append_drop]
    have hpass := get?_phaseOne serverAddresses per (hsplit ▸ hurls)
    rw [← hsplit] at hpass
    rw [addressesOf, hpass, Option.getD_some]
  have hused := filter_usedAddresses openhandsUrls serverAddresses per
  rw [phaseOne] at hused
  have hdivide : ¬ (openhandsUrls ≠ [] ∧ tensorModelParallelSize = 0) := by omega
  by_cases hremaining : remainingAddresses openhandsUrls serverAddresses = []
  · refine ⟨(phaseOne serverAddresses per openhandsUrls).addressAssignments, ?_, fun i url hi => ?_⟩
    · refine Except.ite_throw_eq_ok.mpr ⟨hdivide, ?_⟩
      simp only [← hper, hused, if_pos hremaining]
      rfl
    · rw [hfirst i url hi, hremaining]
      simp [Blocks.share]
  · refine ⟨(openhandsUrls.zipIdx.foldl (phaseTwoStep
      (remainingAddresses openhandsUrls serverAddresses) openhandsUrls.length)
      ⟨(phaseOne serverAddresses per openhandsUrls).addressAssignments, 0⟩).addressAssignments,
      ?_, fun i url hi => ?_⟩
    · refine Except.ite_throw_eq_ok.mpr ⟨hdivide, ?_⟩
      simp only [← hper, hused, if_neg hremaining, if_neg hne]
      rfl
    · rw [addressesOf, (phaseTwo_spec hurls le_rfl).2.1 i url hi, Option.getD_some,
        hfirst i url hi]

/-- The top-ups fit only if there are enough addresses and the list of each server is its own
addresses, the first ones, and its share. -/
lemma topUpsFit_of_nodup {assignments : Dict String (List String)}
    (h : ∀ i url, openhandsUrls[i]? = some url → addressesOf assignments url =
      (topUp serverAddresses (localAddresses serverAddresses url) per
          (phaseOne serverAddresses per (openhandsUrls.take i)).recurrentPointer).1 ++
        Blocks.share (remainingAddresses openhandsUrls serverAddresses) openhandsUrls.length i)
    (hnodup : ∀ url ∈ openhandsUrls, (addressesOf assignments url).Nodup) :
    TopUpsFit openhandsUrls serverAddresses per := by
  by_cases hne : serverAddresses = []
  · exact .inl hne
  · refine .inr fun i url hi => ?_
    -- As long as the servers before it have enough addresses, the pointer is 0.
    have hpass : ∀ i url, openhandsUrls[i]? = some url →
        (∀ other ∈ openhandsUrls.take i,
          shortfall serverAddresses per other ≤ serverAddresses.length) →
        shortfall serverAddresses per url ≤ serverAddresses.length := by
      intro i url hi hbefore
      have hlist := hnodup url (List.mem_of_getElem? hi)
      rw [h i url hi, recurrentPointer_phaseOne hbefore] at hlist
      by_contra hlt
      exact not_nodup_topUp hne (not_le.mp hlt) (List.nodup_append.mp hlist).1
    have hall : ∀ i, ∀ other ∈ openhandsUrls.take i,
        shortfall serverAddresses per other ≤ serverAddresses.length := by
      intro i
      induction i with
      | zero => simp
      | succ i ih =>
        intro other hother
        rw [List.take_add_one, List.mem_append, Option.mem_toList] at hother
        exact hother.elim (ih other) fun hi => hpass i other hi ih
    have henough := hpass i url hi (hall i)
    have hlist := hnodup url (List.mem_of_getElem? hi)
    rw [h i url hi, recurrentPointer_phaseOne (hall i), topUp_eq henough] at hlist
    obtain ⟨hown, -, hshare⟩ := List.nodup_append.mp hlist
    refine ⟨henough, fun address haddress => ⟨fun heq => ?_, fun hmem => ?_⟩⟩
    · refine (List.nodup_append.mp hown).2.2 address ?_ address haddress rfl
      exact List.mem_filter.mpr ⟨List.mem_of_mem_take haddress, decide_eq_true heq⟩
    · exact hshare address (List.mem_append_right _ haddress) address hmem rfl

/-- The addresses of the servers, if the top-ups fit. -/
lemma addressesOf_eq {assignments : Dict String (List String)}
    (h : ∀ i url, openhandsUrls[i]? = some url → addressesOf assignments url =
      (topUp serverAddresses (localAddresses serverAddresses url) per
          (phaseOne serverAddresses per (openhandsUrls.take i)).recurrentPointer).1 ++
        Blocks.share (remainingAddresses openhandsUrls serverAddresses) openhandsUrls.length i)
    (henough : ∀ url ∈ openhandsUrls, shortfall serverAddresses per url ≤ serverAddresses.length)
    {i : ℕ} {url : String} (hi : openhandsUrls[i]? = some url) :
    addressesOf assignments url = localAddresses serverAddresses url ++
      serverAddresses.take (shortfall serverAddresses per url) ++
        Blocks.share (remainingAddresses openhandsUrls serverAddresses) openhandsUrls.length i := by
  rw [h i url hi, recurrentPointer_phaseOne fun other hother => henough other
    (List.mem_of_mem_take hother), topUp_eq (henough url (List.mem_of_getElem? hi)), shortfall]

/-- The addresses on the IP of a server, and those of its share. -/
lemma mem_localAddresses {address url : String} :
    address ∈ localAddresses serverAddresses url ↔
      address ∈ serverAddresses ∧ urlToIp address = urlToIp url := by
  simp [localAddresses]

lemma mem_remainingAddresses {address : String} :
    address ∈ remainingAddresses openhandsUrls serverAddresses ↔
      address ∈ serverAddresses ∧ ∀ url ∈ openhandsUrls, urlToIp address ≠ urlToIp url := by
  simp [remainingAddresses]

/-- **Complete and even** if the top-ups fit. -/
lemma completeAndEven_of_topUpsFit {assignments : Dict String (List String)}
    (hne : openhandsUrls ≠ []) (hurls : openhandsUrls.Nodup) (haddresses : serverAddresses.Nodup)
    (h : ∀ i url, openhandsUrls[i]? = some url → addressesOf assignments url =
      localAddresses serverAddresses url ++
        serverAddresses.take (shortfall serverAddresses per url) ++
          Blocks.share (remainingAddresses openhandsUrls serverAddresses) openhandsUrls.length i)
    (hfit : ∀ i url, openhandsUrls[i]? = some url →
      ∀ address ∈ serverAddresses.take (shortfall serverAddresses per url),
        urlToIp address ≠ urlToIp url ∧
          address ∉ Blocks.share (remainingAddresses openhandsUrls serverAddresses)
            openhandsUrls.length i) :
    CompleteAndEven openhandsUrls serverAddresses assignments := by
  have hpos : 0 < openhandsUrls.length := List.length_pos_iff.mpr hne
  have hremaining : (remainingAddresses openhandsUrls serverAddresses).Nodup :=
    haddresses.filter _
  have hindex : ∀ url ∈ openhandsUrls, ∃ i : ℕ, openhandsUrls[i]? = some url :=
    fun url hurl => List.mem_iff_getElem?.mp hurl
  refine ⟨fun address haddress => ?_, fun url hurl => ?_, fun url hurl address haddress hip => ?_,
    fun hremote a ha b hb => ?_⟩
  · by_cases hip : ∃ url ∈ openhandsUrls, urlToIp address = urlToIp url
    · obtain ⟨url, hurl, hip⟩ := hip
      obtain ⟨i, hi⟩ := hindex url hurl
      refine ⟨url, hurl, ?_⟩
      rw [h i url hi, List.append_assoc]
      exact List.mem_append_left _ (mem_localAddresses.2 ⟨haddress, hip⟩)
    · push Not at hip
      obtain ⟨i, hi, hshare⟩ := Blocks.exists_mem_share hpos
        (mem_remainingAddresses.2 ⟨haddress, hip⟩)
      have hurl := List.getElem?_eq_getElem hi
      refine ⟨_, List.getElem_mem hi, ?_⟩
      rw [h i _ hurl]
      exact List.mem_append_right _ hshare
  · obtain ⟨i, hi⟩ := hindex url hurl
    rw [h i url hi]
    refine List.nodup_append.mpr ⟨List.nodup_append.mpr ⟨haddresses.filter _,
      haddresses.sublist (List.take_sublist _ _), ?_⟩, Blocks.nodup_share hremaining _ _, ?_⟩
    · rintro a ha b hb rfl
      exact (hfit i url hi a hb).1 (mem_localAddresses.1 ha).2
    · rintro a ha b hb rfl
      rcases List.mem_append.mp ha with ha | ha
      · exact (mem_remainingAddresses.1 (Blocks.mem_of_mem_share hb)).2 url hurl
          (mem_localAddresses.1 ha).2
      · exact (hfit i url hi a ha).2 hb
  · obtain ⟨i, hi⟩ := hindex url hurl
    rw [h i url hi, List.append_assoc]
    exact List.mem_append_left _ (mem_localAddresses.2 ⟨haddress, hip⟩)
  · -- No server is topped up: the first address would be in some share.
    have hall : remainingAddresses openhandsUrls serverAddresses = serverAddresses :=
      List.filter_eq_self.mpr fun address haddress =>
        decide_eq_true fun url hurl => hremote url hurl address haddress
    have hshort : ∀ url ∈ openhandsUrls, shortfall serverAddresses per url = per := by
      intro url hurl
      have hnil : localAddresses serverAddresses url = [] :=
        List.filter_eq_nil_iff.mpr fun address haddress =>
          by simpa using hremote url hurl address haddress
      rw [shortfall, hnil, List.length_nil, Nat.sub_zero]
    have hnone : serverAddresses.take per = [] := by
      refine List.eq_nil_iff_forall_not_mem.mpr fun address haddress => ?_
      obtain ⟨i, hi, hshare⟩ := Blocks.exists_mem_share hpos
        (hall.symm ▸ List.mem_of_mem_take haddress)
      refine (hfit i _ (List.getElem?_eq_getElem hi) address ?_).2 hshare
      rwa [hshort _ (List.getElem_mem hi)]
    have hmem : ∀ i url address, openhandsUrls[i]? = some url →
        address ∈ addressesOf assignments url →
        address ∈ Blocks.share serverAddresses openhandsUrls.length i := by
      intro i url address hi haddress
      have hurl := List.mem_of_getElem? hi
      have hnil : localAddresses serverAddresses url = [] :=
        List.filter_eq_nil_iff.mpr fun address haddress =>
          by simpa using hremote url hurl address haddress
      rw [h i url hi, hshort url hurl, hnone, hnil, hall] at haddress
      simpa using haddress
    have hle : serverCount openhandsUrls assignments a ≤ 1 := by
      rw [serverCount, List.countP_eq_length_filter]
      have hsame : ∀ url ∈ openhandsUrls.filter fun url =>
          decide (a ∈ addressesOf assignments url), ∀ url' ∈ openhandsUrls.filter fun url =>
          decide (a ∈ addressesOf assignments url), url = url' := by
        intro url hurl url' hurl'
        obtain ⟨hurl, ha⟩ := List.mem_filter.mp hurl
        obtain ⟨hurl', ha'⟩ := List.mem_filter.mp hurl'
        obtain ⟨i, hi⟩ := hindex url hurl
        obtain ⟨j, hj⟩ := hindex url' hurl'
        obtain rfl := Blocks.share_unique haddresses (hmem i url a hi (of_decide_eq_true ha))
          (hmem j url' a hj (of_decide_eq_true ha'))
        exact Option.some.inj (hi.symm.trans hj)
      have hnodup := hurls.filter fun url => decide (a ∈ addressesOf assignments url)
      match hfilter : openhandsUrls.filter fun url => decide (a ∈ addressesOf assignments url),
        hsame, hnodup with
      | [], _, _ => exact Nat.zero_le _
      | [_], _, _ => exact le_rfl
      | first :: second :: rest, hsame, hnodup =>
        have heq := hsame first (by simp) second (by simp)
        simp [heq] at hnodup
    omega

/-- **When the assignment is complete and even**: exactly if the top-ups fit. -/
theorem completeAndEven_iff {nGpusPerNode tensorModelParallelSize : ℕ}
    (hparallel : 1 ≤ tensorModelParallelSize) (hne : openhandsUrls ≠ [])
    (hurls : openhandsUrls.Nodup) (haddresses : serverAddresses.Nodup) :
    ∃ assignments, assignLlmAddressesToOpenhands openhandsUrls serverAddresses nGpusPerNode
        tensorModelParallelSize = .ok assignments ∧
      (CompleteAndEven openhandsUrls serverAddresses assignments ↔
        TopUpsFit openhandsUrls serverAddresses (nGpusPerNode / tensorModelParallelSize)) := by
  obtain ⟨assignments, hassign, hlists⟩ :=
    exists_assignments serverAddresses nGpusPerNode hparallel hne hurls
  refine ⟨assignments, hassign, fun h => topUpsFit_of_nodup hlists h.nodup, fun h => ?_⟩
  rcases h with rfl | hfit
  · refine ⟨by simp, fun url hurl => ?_, by simp, by simp⟩
    obtain ⟨i, hi⟩ := List.mem_iff_getElem?.mp hurl
    rw [hlists i url hi, topUp_nil]
    simp [Blocks.share, remainingAddresses]
  · refine completeAndEven_of_topUpsFit hne hurls haddresses (fun i url hi =>
      addressesOf_eq hlists (fun url hurl => ?_) hi) fun i url hi => (hfit i url hi).2
    obtain ⟨i, hi⟩ := List.mem_iff_getElem?.mp hurl
    exact (hfit i url hi).1

/-! ### Two clusters -/

/-- Two servers with their own addresses get those. -/
theorem completeAndEven_sameIp :
    ∃ assignments, assignLlmAddressesToOpenhands ["http://10.0.0.1:8000", "http://10.0.0.2:8000"]
        ["10.0.0.1:9000", "10.0.0.2:9000"] 1 1 = .ok assignments ∧
      CompleteAndEven ["http://10.0.0.1:8000", "http://10.0.0.2:8000"]
        ["10.0.0.1:9000", "10.0.0.2:9000"] assignments := by
  obtain ⟨assignments, hassign, hiff⟩ := @completeAndEven_iff
    ["http://10.0.0.1:8000", "http://10.0.0.2:8000"] ["10.0.0.1:9000", "10.0.0.2:9000"] 1 1 le_rfl
    (by simp) (by decide) (by decide)
  refine ⟨assignments, hassign, hiff.mpr (.inr fun i url hi => ?_)⟩
  have hnone : shortfall ["10.0.0.1:9000", "10.0.0.2:9000"] (1 / 1) url = 0 := by
    have hmem := List.mem_of_getElem? hi
    simp only [List.mem_cons, List.not_mem_nil, or_false] at hmem
    rcases hmem with rfl | rfl <;> decide
  rw [hnone]
  exact ⟨Nat.zero_le _, by simp⟩

/-- **An address twice**: three servers and two addresses on other machines. Every server is topped
up with the first address, and the first server gets it again. -/
theorem not_completeAndEven_remote :
    ∃ assignments, assignLlmAddressesToOpenhands
        ["http://10.0.0.1:8000", "http://10.0.0.2:8000", "http://10.0.0.3:8000"]
        ["10.0.1.1:9000", "10.0.1.2:9000"] 1 1 = .ok assignments ∧
      assignments.entries =
        [("http://10.0.0.1:8000", ["10.0.1.1:9000", "10.0.1.1:9000"]),
          ("http://10.0.0.2:8000", ["10.0.1.1:9000", "10.0.1.2:9000"]),
          ("http://10.0.0.3:8000", ["10.0.1.1:9000"])] ∧
      ¬ CompleteAndEven ["http://10.0.0.1:8000", "http://10.0.0.2:8000", "http://10.0.0.3:8000"]
        ["10.0.1.1:9000", "10.0.1.2:9000"] assignments := by
  refine ⟨_, rfl, by decide, fun h => ?_⟩
  exact absurd (h.nodup "http://10.0.0.1:8000" (by simp)) (by decide)

end ProRLAgent.Rollout
