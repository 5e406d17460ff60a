import RyuRooms.Crypto.Reseal
import RyuRooms.Model.ProcessKeys

/-! # A child process has the subkeys of its scope

What `child_env` writes is what `read_delivered` reads, for every scope that a plugin or a component can have and
every number of retired keys. So a child that was given its keys seals and opens as a process that derives them
itself would, and it finds no key for any other scope.
-/

namespace RyuRooms.Crypto

open Foundation

/-- What base64 promises of the texts it writes. -/
structure Crates.WritesBase64 (crates : Crates) : Prop where
  decodes : crates.Decodes
  letters : ∀ bytes, ∀ c ∈ (crates.base64Encode bytes).toList, isWhitespace c = false ∧ c ≠ ','
  size : ∀ bytes, (crates.base64Encode bytes).utf8ByteSize = 4 * ((bytes.length + 2) / 3)

/-- `hkdf32` fills a key. -/
def Crates.Expands (crates : Crates) : Prop := ∀ salt ikm info, (crates.hkdf salt ikm info).length = KEY_LEN

/-- A scope as `valid_plugin_id` and `valid_component` leave it. -/
def KeyScope.Valid : KeyScope → Prop
  | .plugin id => validPluginId id = .ok id
  | .component name => validComponent name = .ok name

/-- A list of texts without commas is read back from their join. -/
theorem splitCommas_joinCommas {items : List String} (some : items ≠ []) (plain : ∀ item ∈ items, ',' ∉ item.toList) :
    splitCommas (joinCommas items) = items := by
  rw [splitCommas, joinCommas, String.toList_ofList, List.splitOn_intercalate]
  · simp [List.map_map, Function.comp_def]
  · simpa using plain
  · simpa using some

/-- What a join shows is in one of its texts, or a comma. -/
theorem mem_joinCommas {items : List String} {c : Char} (member : c ∈ (joinCommas items).toList) :
    c = ',' ∨ ∃ item ∈ items, c ∈ item.toList := by
  rw [joinCommas, String.toList_ofList] at member
  induction items with
  | nil => cases member
  | cons item rest ih =>
    cases rest with
    | nil => exact .inr ⟨item, List.mem_cons_self, by simpa using member⟩
    | cons next rest =>
      simp only [List.map_cons, List.intercalate_cons_cons, List.mem_append, List.mem_singleton] at member ih
      rcases member with (here | comma) | later
      · exact .inr ⟨item, List.mem_cons_self, here⟩
      · exact .inl comma
      · apply (ih later).imp_right
        rintro ⟨found, listed, shown⟩
        exact ⟨found, List.mem_cons_of_mem _ listed, shown⟩

theorem mapM_of_forall {α β ε : Type} {read : α → Except ε β} {write : β → α} {items : List β}
    (back : ∀ item ∈ items, read (write item) = .ok item) : (items.map write).mapM read = .ok items := by
  induction items with
  | nil => rfl
  | cons item rest ih =>
    rw [List.map_cons, List.mapM_cons, back item List.mem_cons_self,
      ih fun later member => back later (List.mem_cons_of_mem _ member)]
    rfl

section Scopes

theorem validPluginId_ok_iff {id valid : String} : validPluginId id = .ok valid ↔ trim id ≠ "" ∧ valid = trim id := by
  rw [validPluginId]
  split
  · next blank => exact iff_of_false nofun fun shown => shown.1 blank
  · next shown =>
    rw [Except.ok.injEq]
    exact ⟨fun same => ⟨shown, same.symm⟩, fun same => same.2.symm⟩

theorem valid_of_validPluginId {id valid : String} (ok : validPluginId id = .ok valid) : (KeyScope.plugin valid).Valid := by
  obtain ⟨shown, rfl⟩ := validPluginId_ok_iff.mp ok
  rw [KeyScope.Valid, validPluginId_ok_iff, trim_trim]
  exact ⟨shown, rfl⟩

theorem valid_of_validComponent {name valid : String} (ok : validComponent name = .ok valid) :
    (KeyScope.component valid).Valid := by
  rw [validComponent] at ok
  split at ok
  · next allowed =>
    obtain rfl := Except.ok.inj ok
    rw [KeyScope.Valid, validComponent]
    simp only [trim_trim]
    rw [if_pos allowed]
  · cases ok

theorem KeyScope.Valid.trimmed {scope : KeyScope} (valid : scope.Valid) : trim scope.id = scope.id ∧ scope.id ≠ "" := by
  cases scope with
  | plugin id =>
    obtain ⟨shown, same⟩ := validPluginId_ok_iff.mp valid
    exact ⟨same.symm, same ▸ shown⟩
  | component name =>
    rw [KeyScope.Valid, validComponent] at valid
    split at valid
    · next allowed =>
      have same := Except.ok.inj valid
      exact ⟨same, same ▸ allowed.1⟩
    · cases valid

/-- A scope is read back from its variable. -/
theorem KeyScope.parse_envValue {scope : KeyScope} (valid : scope.Valid) : KeyScope.parse scope.envValue = .ok scope := by
  obtain ⟨trimmed, some⟩ := valid.trimmed
  cases scope with
  | plugin id =>
    have kept : trim ("plugin:" ++ id) = "plugin:" ++ id := trim_append (by decide) (by decide) trimmed some
    rw [KeyScope.envValue, KeyScope.parse, kept, StoreSeal.stripPrefix_append]
    change (validPluginId id).map _ = _
    rw [show validPluginId id = .ok id from valid]
    rfl
  | component name =>
    have other : stripPrefix ("component:" ++ name) "plugin:" = none := by
      rw [stripPrefix, startsWith, String.toList_append]
      rfl
    have kept : trim ("component:" ++ name) = "component:" ++ name := trim_append (by decide) (by decide) trimmed some
    rw [KeyScope.envValue, KeyScope.parse, kept, other, StoreSeal.stripPrefix_append]
    change (validComponent name).map _ = _
    rw [show validComponent name = .ok name from valid]
    rfl

end Scopes

section Delivery

variable {crates : Crates} (base64 : crates.WritesBase64)
include base64

/-- A key is read back from its text. -/
theorem decodeKey_base64Encode {key : Bytes} (whole : key.length = KEY_LEN) :
    decodeKey crates (crates.base64Encode key) = some key := by
  rw [decodeKey, base64.decodes, Option.filter_some, if_pos (decide_eq_true whole)]

theorem base64Encode_ne_empty {key : Bytes} (whole : key.length = KEY_LEN) : crates.base64Encode key ≠ "" := by
  intro empty
  have size := base64.size key
  rw [empty, whole] at size
  cases size

theorem trim_base64Encode (bytes : Bytes) : trim (crates.base64Encode bytes) = crates.base64Encode bytes :=
  trim_of_no_whitespace fun c member => (base64.letters bytes c member).1

/-- The texts of some keys are no blank, and their join is as it is when trimmed. -/
theorem trim_joinCommas (keys : List Bytes) :
    trim (joinCommas (keys.map crates.base64Encode)) = joinCommas (keys.map crates.base64Encode) := by
  apply trim_of_no_whitespace
  intro c member
  rcases mem_joinCommas member with rfl | ⟨item, listed, shown⟩
  · decide
  · obtain ⟨key, -, rfl⟩ := List.mem_map.mp listed
    exact (base64.letters key c shown).1

theorem splitCommas_base64 {keys : List Bytes} (some : keys ≠ []) :
    splitCommas (joinCommas (keys.map crates.base64Encode)) = keys.map crates.base64Encode := by
  apply splitCommas_joinCommas
  · simpa using some
  · intro item listed comma
    obtain ⟨key, -, rfl⟩ := List.mem_map.mp listed
    exact (base64.letters key ',' comma).2 rfl

/-- Retired keys are read back from their variable, in order. -/
theorem readRetired_joinCommas {keys : List Bytes} (some : keys ≠ []) (whole : ∀ key ∈ keys, key.length = KEY_LEN) :
    readRetired crates (joinCommas (keys.map crates.base64Encode)) = .ok keys := by
  rw [readRetired, splitCommas_base64 base64 some]
  apply mapM_of_forall
  intro key member
  rw [decodeKey_base64Encode base64 (whole key member)]
  rfl

/-- The variable of some retired keys is no blank. -/
theorem joinCommas_ne_empty {keys : List Bytes} (some : keys ≠ []) (whole : ∀ key ∈ keys, key.length = KEY_LEN) :
    joinCommas (keys.map crates.base64Encode) ≠ "" := by
  intro empty
  have split := splitCommas_base64 base64 some
  rw [empty] at split
  obtain ⟨key, rest, rfl⟩ := List.exists_cons_of_ne_nil some
  have blank : "" = crates.base64Encode key := (List.cons.inj split).1
  exact base64Encode_ne_empty base64 (whole key List.mem_cons_self) blank.symm

/-- What a child reads from three variables that were written for it. -/
theorem readDelivered_of_written {scope : KeyScope} (valid : scope.Valid) {key : Bytes} {retired : List Bytes}
    {variable_ : Option String} (whole : key.length = KEY_LEN) (wholes : ∀ key ∈ retired, key.length = KEY_LEN)
    (written : variable_ = if retired = [] then none else some (joinCommas (retired.map crates.base64Encode))) :
    readDelivered crates (some (crates.base64Encode key)) (some scope.envValue) variable_ =
      .ok (some ⟨scope, key, retired⟩) := by
  have shown : trim (crates.base64Encode key) ≠ "" := by
    rw [trim_base64Encode base64]
    exact base64Encode_ne_empty base64 whole
  have keys : ((variable_.map trim).filter fun value => value ≠ "").elim (.ok []) (readRetired crates) = .ok retired := by
    rw [written]
    split
    · next none => rw [none]; rfl
    · next some =>
      rw [Option.map_some, trim_joinCommas base64, Option.filter_some,
        if_pos (decide_eq_true (joinCommas_ne_empty base64 some wholes))]
      exact readRetired_joinCommas base64 some wholes
  rw [readDelivered, Option.filter_some, if_pos (decide_eq_true shown)]
  simp only [bind_eq_ok_iff]
  refine ⟨key, ?_, scope.envValue, rfl, scope, KeyScope.parse_envValue valid, retired, keys, rfl⟩
  rw [decodeKey_base64Encode base64 whole, Option.elim_some]

/-- What a child reads from the environment made for its scope. -/
theorem deliveredIn_childEnv (expands : crates.Expands) {scope : KeyScope} (valid : scope.Valid) (master : Bytes)
    (retired : List Bytes) :
    deliveredIn crates (childEnv crates master retired (scope.derive crates) scope scope.id) =
      .ok (some ⟨scope, scope.derive crates master scope.id, retired.map fun key => scope.derive crates key scope.id⟩) := by
  have whole (key : Bytes) : (scope.derive crates key scope.id).length = KEY_LEN := by
    cases scope
    · exact expands _ _ _
    · exact expands _ _ _
  apply readDelivered_of_written base64 valid (whole master)
  · intro key member
    obtain ⟨master, -, rfl⟩ := List.mem_map.mp member
    exact whole master
  · rw [childEnv]
    by_cases none : retired = []
    · subst none
      rfl
    · rw [if_neg none, if_neg (by simpa using none), List.map_map]
      rfl

/-- The keys that a child finds for the scope that its environment is made for, whatever else it is given. -/
theorem processSubkey_childEnv (expands : crates.Expands) {scope : KeyScope} (valid : scope.Valid) (master : Bytes)
    (retired : List Bytes) (host : Option (Except String Keys)) :
    processSubkey crates host (childEnv crates master retired (scope.derive crates) scope scope.id) scope
        (scope.derive crates) scope.id =
      .ok (scope.derive crates master scope.id, retired.map fun key => scope.derive crates key scope.id) := by
  refine bind_eq_ok_iff.mpr ⟨_, deliveredIn_childEnv base64 expands valid master retired, ?_⟩
  rw [subkeyFrom, if_neg (not_not.mpr rfl)]

/-- A plugin that Core starts has the cipher that Core's own keys give the plugin. -/
theorem pluginCipherForProcess_of_child (expands : crates.Expands) {keys : Keys} {pluginId : String}
    {env : List (String × String)} (made : pluginChildEnv crates (.ok keys) pluginId = .ok env)
    (host : Option (Except String Keys)) :
    ∃ id, validPluginId pluginId = .ok id ∧ pluginCipherForProcess crates host env pluginId =
      .ok ⟨id, derivePluginKey crates keys.1 id, keys.2.map fun key => derivePluginKey crates key id⟩ := by
  obtain ⟨id, valid, made⟩ := bind_eq_ok_iff.mp made
  obtain rfl := Except.ok.inj made
  refine ⟨id, valid, ?_⟩
  have found := processSubkey_childEnv base64 expands (valid_of_validPluginId valid) keys.1 keys.2 host
  exact bind_eq_ok_iff.mpr ⟨id, valid, bind_eq_ok_iff.mpr ⟨_, found, rfl⟩⟩

/-- A component that Core starts has the cipher that Core's own keys give the component. -/
theorem componentCipherForProcess_of_child (expands : crates.Expands) {keys : Keys} {component : String}
    {env : List (String × String)} (made : componentChildEnv crates (.ok keys) component = .ok env)
    (host : Option (Except String Keys)) :
    ∃ name, validComponent component = .ok name ∧ componentCipherForProcess crates host env component =
      .ok ⟨name, deriveComponentKey crates keys.1 name, keys.2.map fun key => deriveComponentKey crates key name⟩ := by
  obtain ⟨name, valid, made⟩ := bind_eq_ok_iff.mp made
  obtain rfl := Except.ok.inj made
  refine ⟨name, valid, ?_⟩
  have found := processSubkey_childEnv base64 expands (valid_of_validComponent valid) keys.1 keys.2 host
  exact bind_eq_ok_iff.mpr ⟨name, valid, bind_eq_ok_iff.mpr ⟨_, found, rfl⟩⟩

end Delivery

/-- With a delivery for one scope, there is no key for another. -/
theorem subkeyFrom_of_other {delivered : Delivered} {scope : KeyScope} (other : delivered.scope ≠ scope)
    (master : Except String (Option Keys)) (derive : Bytes → String → Bytes) (id : String) :
    subkeyFrom (some delivered) master scope derive id =
      .error (SEAL_KEY_ENV ++ " was delivered for " ++ delivered.scope.envValue ++ ", not " ++ scope.envValue) := by
  rw [subkeyFrom, if_pos other]

/-- In a process that was given a key, every key found is one of the delivery's own, for its own scope. -/
theorem delivered_of_processSubkey {crates : Crates} {host : Option (Except String Keys)} {env : List (String × String)}
    {value : String} (given : envVar env SEAL_KEY_ENV = some value) (shown : trim value ≠ "") {scope : KeyScope}
    {derive : Bytes → String → Bytes} {id : String} {keys : Keys}
    (found : processSubkey crates host env scope derive id = .ok keys) :
    deliveredIn crates env = .ok (some ⟨scope, keys.1, keys.2⟩) := by
  rw [processSubkey, bind_eq_ok_iff] at found
  obtain ⟨delivered, read, found⟩ := found
  rw [read]
  cases delivered with
  | none =>
    rw [deliveredIn, readDelivered, given, Option.filter_some, if_pos (decide_eq_true shown)] at read
    simp only [bind_eq_ok_iff] at read
    obtain ⟨key, -, scope, -, parsed, -, retired, -, none⟩ := read
    cases none
  | some delivered =>
    rw [subkeyFrom] at found
    split at found
    · cases found
    · next same =>
      obtain rfl := Except.ok.inj found
      rw [← not_not.mp same]

/-- A child reads from its environment the subkeys that its masters give its scope, and no key for another scope. -/
theorem child_reads_subkeys {crates : Crates} (base64 : crates.WritesBase64) (expands : crates.Expands)
    {scope : KeyScope} (valid : scope.Valid) (master : Bytes) (retired : List Bytes) :
    ∃ delivered,
      deliveredIn crates (childEnv crates master retired (scope.derive crates) scope scope.id) = .ok (some delivered) ∧
      (∀ unused,
        subkeyFrom (some delivered) unused scope (scope.derive crates) scope.id =
          .ok (scope.derive crates master scope.id, retired.map fun key => scope.derive crates key scope.id) ∧
        subkeyFrom (some delivered) unused scope (scope.derive crates) scope.id =
          subkeyFrom none (.ok (some (master, retired))) scope (scope.derive crates) scope.id) ∧
      (∀ other, other ≠ scope → ∀ unused derive id, ∃ error,
        subkeyFrom (some delivered) unused other derive id = .error error) ∧
      ∀ env value, envVar env SEAL_KEY_ENV = some value → trim value ≠ "" → ∀ host other derive id keys,
        processSubkey crates host env other derive id = .ok keys →
          deliveredIn crates env = .ok (some ⟨other, keys.1, keys.2⟩) := by
  refine ⟨_, deliveredIn_childEnv base64 expands valid master retired, ?_, ?_, ?_⟩
  · intro unused
    rw [subkeyFrom, if_neg (not_not.mpr rfl)]
    exact ⟨rfl, rfl⟩
  · intro other apart unused derive id
    exact ⟨_, subkeyFrom_of_other (Ne.symm apart) unused derive id⟩
  · intro env value given shown host other derive id keys found
    exact delivered_of_processSubkey given shown found

/-- The characters that base64 writes. -/
theorem Sample.of_mem_alphabet {c : Char} (member : c ∈ '=' :: Base64.alphabet) :
    isWhitespace c = false ∧ c ≠ ',' ∧ c.utf8Size = 1 := by
  have known : ('=' :: Base64.alphabet).all fun c => !isWhitespace c && c != ',' && c.utf8Size == 1 := by
    decide +kernel
  simpa [and_assoc] using List.all_eq_true.mp known c member

theorem Sample.letters (bytes : Bytes) (c : Char) (member : c ∈ (Sample.standard.base64Encode bytes).toList) :
    isWhitespace c = false ∧ c ≠ ',' ∧ c.utf8Size = 1 := by
  apply Sample.of_mem_alphabet
  change c ∈ (String.ofList _).toList at member
  rw [String.toList_ofList] at member
  exact Base64.mem_encode member

theorem Sample.writesBase64 : Sample.standard.WritesBase64 where
  decodes bytes := by
    rw [trim_of_no_whitespace fun c member => (Sample.letters bytes c member).1]
    change Base64.decode (String.ofList _).toList = _
    rw [String.toList_ofList, Base64.decode_encode]
  letters bytes c member := ⟨(Sample.letters bytes c member).1, (Sample.letters bytes c member).2.1⟩
  size bytes := by
    rw [← Base64.length_encode]
    apply utf8ByteSize_of_ascii
    intro c member
    apply fun shown => (Sample.letters bytes c shown).2.2
    change c ∈ (String.ofList _).toList
    rwa [String.toList_ofList]

/-- The gateway under the key `[2]`, with the key `[1]` retired twice, and no key for a plugin of the same name. -/
theorem child_reads_subkeys_gateway :
    let env := childEnv Sample.standard [2] [[1], [1]] (deriveComponentKey Sample.standard) (.component "gateway") "gateway"
    env.length = 3 ∧ ∃ delivered, deliveredIn Sample.standard env = .ok (some delivered) ∧
      delivered.retired = [deriveComponentKey Sample.standard [1] "gateway", deriveComponentKey Sample.standard [1] "gateway"] ∧
      ∃ error, subkeyFrom (some delivered) (.ok none) (.plugin "gateway") (derivePluginKey Sample.standard) "gateway" =
        .error error := by
  intro env
  have valid : (KeyScope.component "gateway").Valid := by
    rw [KeyScope.Valid]
    decide +kernel
  obtain ⟨delivered, read, own, other, -⟩ := child_reads_subkeys Sample.writesBase64 (fun _ _ _ => List.length_replicate)
    valid [2] [[1], [1]]
  refine ⟨rfl, delivered, read, ?_, other _ (by decide) _ _ _⟩
  have keys := (own (.ok none)).1
  rw [subkeyFrom] at keys
  split at keys
  · cases keys
  · exact congrArg Prod.snd (Except.ok.inj keys)

end RyuRooms.Crypto
