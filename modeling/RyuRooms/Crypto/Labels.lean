import RyuRooms.Crypto.Reseal

/-! # Rotation along a path of labels

The current key and the retired keys of a nested cipher are derived in two places. Both follow the same path, so
roots can be retired before, between or after the subciphers are taken, and what an earlier root sealed along a
path opens along it.
-/

namespace RyuRooms.Crypto

open Foundation

namespace ContentCipher

variable {crates : Crates}

/-- Subciphers taken one after the other. -/
def subciphers (crates : Crates) (cipher : ContentCipher) (labels : List String) : ContentCipher :=
  labels.foldl (subcipher crates) cipher

/-- The key of a root along the labels of a cipher. -/
def keyAlong (crates : Crates) (cipher : ContentCipher) (root : Bytes) : ContentKey :=
  ⟨cipher.labels.foldl (deriveSubKey crates) (deriveContentKey crates root cipher.store), keyCheckValue crates root⟩

/-- `derive` of `subcipher`. -/
def deriveKey (crates : Crates) (label : String) (key : ContentKey) : ContentKey :=
  { key with key := deriveSubKey crates key.key label }

section Commutation

variable (cipher : ContentCipher) (label : String)

theorem keyAlong_subcipher (root : Bytes) :
    (cipher.subcipher crates label).keyAlong crates root = deriveKey crates label (cipher.keyAlong crates root) := by
  simp only [keyAlong, subcipher, deriveKey, List.foldl_append, List.foldl_cons, List.foldl_nil]

/-- The loop over the roots follows a subcipher, key by key. -/
theorem retire_subcipher (keys : List ContentKey) (roots : List Bytes) :
    (cipher.subcipher crates label).retire crates (keys.map (deriveKey crates label)) roots =
      (cipher.retire crates keys roots).map (deriveKey crates label) := by
  induction roots generalizing keys with
  | nil => rfl
  | cons root roots ih =>
    have known : (keys.map (deriveKey crates label)).any (·.rootKcv = keyCheckValue crates root) =
        keys.any (·.rootKcv = keyCheckValue crates root) := by
      rw [List.any_map]
      rfl
    have current : (cipher.subcipher crates label).current.rootKcv = cipher.current.rootKcv := rfl
    have next := @keyAlong_subcipher crates cipher label root
    rw [keyAlong, keyAlong] at next
    rw [retire, retire]
    simp only [known, current]
    by_cases skipped : keyCheckValue crates root = cipher.current.rootKcv ∨
        keys.any (·.rootKcv = keyCheckValue crates root)
    · rw [if_pos skipped, if_pos skipped, ih]
    · rw [if_neg skipped, if_neg skipped, next, ← List.map_singleton, ← List.map_append, ih]

/-- A subcipher of a rotated cipher is the rotated subcipher. -/
theorem subcipher_withRetiredRoots (roots : List Bytes) :
    (cipher.withRetiredRoots crates roots).subcipher crates label =
      (cipher.subcipher crates label).withRetiredRoots crates roots := by
  have keys := @retire_subcipher crates cipher label [] roots
  rw [List.map_nil] at keys
  rw [withRetiredRoots, withRetiredRoots, keys]
  rfl

theorem subciphers_withRetiredRoots (roots : List Bytes) (labels : List String) :
    (cipher.withRetiredRoots crates roots).subciphers crates labels =
      (cipher.subciphers crates labels).withRetiredRoots crates roots := by
  induction labels generalizing cipher with
  | nil => rfl
  | cons label labels ih =>
    rw [subciphers, List.foldl_cons, subcipher_withRetiredRoots]
    exact ih _

/-- Every key that the loop adds is that of one of the roots, along the labels of the cipher. -/
theorem mem_retire {key : ContentKey} {keys : List ContentKey} {roots : List Bytes}
    (member : key ∈ cipher.retire crates keys roots) : key ∈ keys ∨ ∃ root ∈ roots, key = cipher.keyAlong crates root := by
  induction roots generalizing keys with
  | nil => exact Or.inl member
  | cons root roots ih =>
    rw [retire] at member
    simp only at member
    split at member
    · rcases ih member with known | ⟨other, listed, same⟩
      · exact Or.inl known
      · exact Or.inr ⟨other, List.mem_cons_of_mem _ listed, same⟩
    · rcases ih member with known | ⟨other, listed, same⟩
      · rcases List.mem_append.mp known with known | new
        · exact Or.inl known
        · exact Or.inr ⟨root, List.mem_cons_self, List.mem_singleton.mp new⟩
      · exact Or.inr ⟨other, List.mem_cons_of_mem _ listed, same⟩

theorem subset_retire (keys : List ContentKey) (roots : List Bytes) : keys ⊆ cipher.retire crates keys roots := by
  induction roots generalizing keys with
  | nil => exact List.Subset.refl _
  | cons root roots ih =>
    rw [retire]
    simp only
    split
    · exact ih keys
    · exact fun key known => ih _ (List.mem_append_left _ known)

/-- Every root has the check value of the current key, or of one of the keys that the loop keeps. -/
theorem exists_mem_retire {root : Bytes} {keys : List ContentKey} {roots : List Bytes} (listed : root ∈ roots) :
    keyCheckValue crates root = cipher.current.rootKcv ∨
      ∃ key ∈ cipher.retire crates keys roots, key.rootKcv = keyCheckValue crates root := by
  induction roots generalizing keys with
  | nil => cases listed
  | cons first roots ih =>
    rw [retire]
    simp only
    rcases List.mem_cons.mp listed with rfl | later
    · split
      · next known =>
        refine known.imp id fun known => ?_
        obtain ⟨key, member, same⟩ := List.any_eq_true.mp known
        exact ⟨key, cipher.subset_retire keys roots member, of_decide_eq_true same⟩
      · exact Or.inr ⟨_, cipher.subset_retire _ roots (List.mem_append_right _ (List.mem_singleton_self _)), rfl⟩
    · split
      · exact ih later
      · exact ih later

end Commutation

section Opening

variable {cipher sealer : ContentCipher} {nonce : Nonce} {context : ContentContext} {sealedUnder message : Bytes}

/-- No key of a cipher but the one that sealed a message opens it. -/
def OpensOnly (crates : Crates) (cipher : ContentCipher) (sealedUnder : Bytes) (nonce : Nonce) (message aad : Bytes) : Prop :=
  ∀ candidate ∈ cipher.candidateKeys, candidate.1.key ≠ sealedUnder →
    crates.decrypt candidate.1.key nonce (crates.encrypt sealedUnder nonce message aad) aad = none

/-- A search finds an answer that some candidate gives and no candidate gives another. -/
theorem findSome?_eq_some_of_forall {α β : Type} {values : List α} {find : α → Option β} {answer : β}
    (found : ∃ value ∈ values, (find value).isSome)
    (only : ∀ value ∈ values, ∀ other, find value = some other → other = answer) :
    values.findSome? find = some answer := by
  obtain ⟨other, result⟩ := Option.isSome_iff_exists.mp (List.findSome?_isSome_iff.mpr found)
  obtain ⟨value, member, given⟩ := List.exists_of_findSome?_eq_some result
  rw [result, only value member other given]

/-- A cipher that has the key of a message opens it, and tells whether that is its current key. -/
theorem openBlob_of_mem (opens : crates.Opens)
    (only : OpensOnly crates cipher sealedUnder nonce message (context.associatedData cipher.store))
    (held : ∃ candidate ∈ cipher.candidateKeys, candidate.1.key = sealedUnder) :
    cipher.openBlob crates (nonce ++ crates.encrypt sealedUnder nonce message (context.associatedData cipher.store)) context =
      .ok (message, cipher.current.key ≠ sealedUnder) := by
  have nonce_ : (nonce.1 ++ crates.encrypt sealedUnder nonce message (context.associatedData cipher.store)).take
      NONCE_LEN = nonce := List.take_left' nonce.2
  have ciphertext : (nonce.1 ++ crates.encrypt sealedUnder nonce message (context.associatedData cipher.store)).drop
      NONCE_LEN = crates.encrypt sealedUnder nonce message (context.associatedData cipher.store) := List.drop_left' nonce.2
  rw [openBlob, nonce_, ciphertext]
  refine elim_eq_ok_iff.mpr ?_
  by_cases current : cipher.current.key = sealedUnder
  · rw [candidateKeys, List.findSome?_cons]
    simp only [current, opens.opens, Option.map_some, ne_eq, not_true_eq_false, decide_false]
  · have answers : ∀ candidate ∈ cipher.candidateKeys, ∀ answer : Bytes × Bool,
        (crates.decrypt candidate.1.key nonce (crates.encrypt sealedUnder nonce message (context.associatedData cipher.store))
          (context.associatedData cipher.store)).map (·, candidate.2) = some answer → answer = (message, true) := by
      intro candidate member answer opened
      by_cases same : candidate.1.key = sealedUnder
      · rw [same, opens.opens, Option.map_some] at opened
        rcases List.mem_cons.mp member with rfl | retired
        · exact absurd same current
        · obtain ⟨_, -, rfl⟩ := List.mem_map.mp retired
          exact (Option.some.inj opened).symm
      · rw [only candidate member same] at opened
        cases opened
    obtain ⟨⟨key, retired⟩, member, same⟩ := held
    have same : key.key = sealedUnder := same
    rw [decide_eq_true current]
    refine findSome?_eq_some_of_forall ⟨_, member, ?_⟩ answers
    simp only [same, opens.opens, Option.map_some, Option.isSome_some]

end Opening

section Paths

variable (root : Bytes) (store : String) (roots : List Bytes)

theorem subciphers_snoc (cipher : ContentCipher) (labels : List String) (label : String) :
    cipher.subciphers crates (labels ++ [label]) = (cipher.subciphers crates labels).subcipher crates label := by
  rw [subciphers, List.foldl_append, List.foldl_cons, List.foldl_nil, subciphers]

/-- A path of labels leads from a root to its key along the path. -/
theorem subciphers_fromRoot (labels : List String) : ((fromRoot crates root store).subciphers crates labels).store = store ∧
    ((fromRoot crates root store).subciphers crates labels).labels = labels ∧
    ((fromRoot crates root store).subciphers crates labels).current =
      ((fromRoot crates root store).subciphers crates labels).keyAlong crates root := by
  induction labels using List.reverseRecOn with
  | nil => exact ⟨rfl, rfl, rfl⟩
  | append_singleton labels label ih =>
    obtain ⟨named, path, key⟩ := ih
    rw [subciphers_snoc, keyAlong_subcipher, ← key]
    refine ⟨named, ?_, rfl⟩
    change ((fromRoot crates root store).subciphers crates labels).labels ++ [label] = labels ++ [label]
    rw [path]

variable {root store roots}

/-- The cipher of a path holds the key of every root that was retired. -/
theorem exists_candidate {earlier : Bytes} {labels : List String} (listed : earlier ∈ roots)
    (apart : ∀ left ∈ root :: roots, ∀ right ∈ root :: roots,
      keyCheckValue crates left = keyCheckValue crates right → left = right) :
    ∃ candidate ∈ (((fromRoot crates root store).withRetiredRoots crates roots).subciphers crates labels).candidateKeys,
      candidate.1.key = ((fromRoot crates earlier store).subciphers crates labels).current.key := by
  rw [subciphers_withRetiredRoots]
  obtain ⟨named, path, current⟩ := @subciphers_fromRoot crates root store labels
  obtain ⟨named_, path_, sealer⟩ := @subciphers_fromRoot crates earlier store labels
  have same : ((fromRoot crates earlier store).subciphers crates labels).current =
      ((fromRoot crates root store).subciphers crates labels).keyAlong crates earlier := by
    rw [sealer, keyAlong, keyAlong, named, path, named_, path_]
  rw [same]
  rcases @exists_mem_retire crates ((fromRoot crates root store).subciphers crates labels) earlier [] roots listed with
    known | ⟨key, member, known⟩
  · rw [current] at known
    obtain rfl := apart earlier (List.mem_cons_of_mem _ listed) root List.mem_cons_self known
    exact ⟨(_, false), List.mem_cons_self, congrArg ContentKey.key current⟩
  · rcases mem_retire _ member with none | ⟨other, otherListed, rfl⟩
    · cases none
    · obtain rfl := apart other (List.mem_cons_of_mem _ otherListed) earlier (List.mem_cons_of_mem _ listed) known
      exact ⟨(_, true), List.mem_cons_of_mem _ (List.mem_map_of_mem member), rfl⟩

end Paths

end ContentCipher

section Rotation

variable {crates : Crates} {root earlier : Bytes} {store : String} {roots : List Bytes} {labels : List String}

/-- Roots can be retired at any level of a path, and what an earlier root sealed along the path opens along it. -/
theorem rotation_follows_labels :
    (∀ outer inner, outer ++ inner = labels →
      (((ContentCipher.fromRoot crates root store).subciphers crates outer).withRetiredRoots crates roots).subciphers
          crates inner =
        ((ContentCipher.fromRoot crates root store).withRetiredRoots crates roots).subciphers crates labels) ∧
    (crates.Opens → (∀ left ∈ root :: roots, ∀ right ∈ root :: roots,
        keyCheckValue crates left = keyCheckValue crates right → left = right) →
      ∀ earlier ∈ roots, ∀ nonce : Nonce, ∀ context : ContentContext,
      let sealer := (ContentCipher.fromRoot crates earlier store).subciphers crates labels
      let path := ((ContentCipher.fromRoot crates root store).withRetiredRoots crates roots).subciphers crates labels
      (crates.Decodes → ∀ value,
        path.OpensOnly crates sealer.current.key nonce (utf8 value) (context.associatedData path.store) →
          path.openText crates (sealer.sealText crates nonce value context) context =
            .ok ⟨value, path.current.key ≠ sealer.current.key⟩) ∧
      ∀ value sealed, path.OpensOnly crates sealer.current.key nonce value (context.associatedData path.store) →
        sealer.sealBytes crates nonce value context = .ok sealed →
          path.openBytes crates sealed context = .ok ⟨value, path.current.key ≠ sealer.current.key⟩) := by
  constructor
  · rintro outer inner rfl
    rw [ContentCipher.subciphers_withRetiredRoots, ContentCipher.subciphers_withRetiredRoots]
    simp only [ContentCipher.subciphers, List.foldl_append]
  · intro opens apart earlier listed nonce context sealer path
    have held := @ContentCipher.exists_candidate crates root store roots earlier labels listed apart
    have named : path.store = sealer.store := by
      simp only [path, sealer, ContentCipher.subciphers_withRetiredRoots, ContentCipher.withRetiredRoots]
      rw [(ContentCipher.subciphers_fromRoot root store labels).1, (ContentCipher.subciphers_fromRoot earlier store labels).1]
    constructor
    · intro decodes value only
      have opened := ContentCipher.openBlob_of_mem opens only held
      rw [named] at opened
      exact openText_of_openBlob opens.length decodes opened
    · intro value sealed only wrote
      have opened := ContentCipher.openBlob_of_mem opens only held
      rw [named] at opened
      exact openBytes_of_openBlob opens.length wrote opened

end Rotation

/-- Under the root `[9]`, with roots retired twice and the current one among them, a text that the root `[7]` sealed. -/
theorem rotation_follows_labels_hour :
    let roots : List Bytes := [[5], [7], [9], [5]]
    let path := ((ContentCipher.fromRoot Sample.crates [9] "shadow-events").withRetiredRoots Sample.crates roots).subciphers
      Sample.crates ["hour", "segment"]
    let sealer := (ContentCipher.fromRoot Sample.crates [7] "shadow-events").subciphers Sample.crates ["hour", "segment"]
    path.retired.length = 2 ∧ (((ContentCipher.fromRoot Sample.crates [9] "shadow-events").subciphers Sample.crates
        ["hour"]).withRetiredRoots Sample.crates roots).subciphers Sample.crates ["segment"] = path ∧
      path.openText Sample.crates (sealer.sealText Sample.crates Sample.nonce "x" Sample.context) Sample.context =
        .ok ⟨"x", true⟩ := by
  intro roots path sealer
  obtain ⟨levels, opened⟩ := @rotation_follows_labels Sample.crates [9] "shadow-events" roots ["hour", "segment"]
  refine ⟨by decide +kernel, levels ["hour"] ["segment"] rfl, ?_⟩
  have text := (opened Sample.opens (by decide +kernel) [7] (by decide) Sample.nonce Sample.context).1 Sample.decodes "x" (by
    unfold ContentCipher.OpensOnly
    decide +kernel)
  have apart : path.current.key ≠ sealer.current.key := by decide +kernel
  rw [decide_eq_true apart] at text
  exact text

end RyuRooms.Crypto
