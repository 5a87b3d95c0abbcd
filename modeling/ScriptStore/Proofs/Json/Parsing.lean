import ScriptStore.Json.Reader
import ScriptStore.Proofs.Json.Lexing

/-!
# Reading back written values

From inside some open arrays and objects, the tokens of a value without repeated keys are read into
the value exactly if these and the nesting of the value are 127 levels at most
(`Reading.readsBack_of_distinctKeys`).  With the tokens of written texts this gives the round trip
(`Json.ofString?_pretty`).
-/

namespace ScriptStore

/-- A new key goes last. -/
theorem Entries.insert_of_notMem {α : Type} {key : String} {entries : List (String × α)}
    (h : key ∉ Entries.keys entries) (value : α) :
    Entries.insert key value entries = entries ++ [(key, value)] := by
  induction entries with
  | nil => rfl
  | cons entry rest ih =>
    obtain ⟨k, v⟩ := entry
    rw [Entries.keys_cons, List.mem_cons, not_or] at h
    rw [Entries.insert, if_neg (Ne.symm h.1), ih h.2, List.cons_append]

namespace Json

namespace Reading

variable {stack : List Open}

/-! ## Reading within the limit -/

/-- The reading that goes on if this many levels are allowed. -/
def within (levels : Nat) (reading : Reading) : Option Reading :=
  if levels ≤ maxOpen then some reading else none

theorem within_of_le {levels : Nat} (h : levels ≤ maxOpen) (reading : Reading) :
    within levels reading = some reading := if_pos h

/-- What is read behind a value needs its own levels too. -/
theorem within_bind {levels more : Nat} {reading last : Reading} {next : Reading → Option Reading}
    (h : next reading = within more last) :
    (within levels reading >>= next) = within (max levels more) last := by
  unfold within at h ⊢
  by_cases hlevels : levels ≤ maxOpen
  · rw [if_pos hlevels]
    show next reading = _
    rw [h]
    simp only [Nat.max_le, hlevels, true_and]
  · rw [if_neg hlevels, if_neg fun hmax => hlevels (Nat.max_le.mp hmax).1]
    rfl

/-- The tokens lead from any open arrays and objects to the value, unless it is nested too deep
there. -/
def ReadsBack (value : Json) : Prop :=
  ∀ stack : List Open, stack.length ≤ maxOpen →
    value.tokens.foldlM step (.needValue stack) =
      within (stack.length + value.depth) (.complete stack value)

/-! ## Items -/

/-- Items behind the first one, and the end of the array. -/
theorem foldlM_itemTokens (hstack : stack.length < maxOpen) {items : List Json}
    (h : ∀ item ∈ items, ReadsBack item) (before : List Json) (value : Json) :
    (itemTokens false items ++ [Token.closeArray]).foldlM step
        (.complete (.array before :: stack) value) =
      within (stack.length + 1 + depthItems items)
        (.complete stack (.arr (before.reverse ++ value :: items))) := by
  induction items generalizing before value with
  | nil =>
    rw [itemTokens, depthItems, within_of_le hstack]
    show some (complete stack (.arr (value :: before).reverse)) = _
    rw [List.reverse_cons]
  | cons item rest ih =>
    rw [List.forall_mem_cons] at h
    rw [itemTokens, depthItems, List.append_assoc, List.append_assoc, List.foldlM_append,
      ← Nat.add_max_add_left]
    show (item.tokens ++ _).foldlM step (.needValue (.array (value :: before) :: stack)) = _
    rw [List.foldlM_append, h.1 (.array (value :: before) :: stack) hstack]
    refine within_bind ?_
    rw [ih h.2, List.reverse_cons, List.append_assoc, List.singleton_append]

/-- The first token of a value is not the end of an array. -/
theorem exists_tokens_eq_cons (value : Json) :
    ∃ token rest, value.tokens = token :: rest ∧ token ≠ .closeArray := by
  cases value
  all_goals
    rw [tokens]
    refine ⟨_, _, rfl, ?_⟩
    rintro ⟨⟩

/-- The first item of an array is read like any value. -/
theorem foldlM_firstItem (value : Json) :
    value.tokens.foldlM step (.needFirstItem stack) =
      value.tokens.foldlM step (.needValue (.array [] :: stack)) := by
  obtain ⟨token, rest, htokens, hne⟩ := exists_tokens_eq_cons value
  have hstep : step (.needFirstItem stack) token = step (.needValue (.array [] :: stack)) token :=
    if_neg hne
  rw [htokens, List.foldlM_cons, List.foldlM_cons, hstep]

/-- An array is read back if its items are. -/
theorem readsBack_arr {items : List Json} (h : ∀ item ∈ items, ReadsBack item) :
    ReadsBack (.arr items) := by
  intro stack hstack
  rw [tokens, depth, List.foldlM_cons]
  by_cases hroom : stack.length < maxOpen
  · have hopen : step (.needValue stack) .openArray = some (.needFirstItem stack) := if_pos hroom
    rw [hopen]
    show (itemTokens true items ++ [Token.closeArray]).foldlM step (.needFirstItem stack) = _
    cases items with
    | nil =>
      rw [itemTokens, depthItems, within_of_le hroom]
      rfl
    | cons first rest =>
      rw [List.forall_mem_cons] at h
      rw [itemTokens, depthItems, if_pos rfl, List.nil_append, List.append_assoc,
        List.foldlM_append, foldlM_firstItem, h.1 (.array [] :: stack) hroom]
      refine (within_bind (foldlM_itemTokens hroom h.2 [] first)).trans ?_
      rw [List.length_cons, Nat.add_max_add_left, Nat.add_right_comm, Nat.add_assoc]
      rfl
  · have hopen : step (.needValue stack) .openArray = none := if_neg hroom
    rw [hopen, within, if_neg (by omega)]
    rfl

/-! ## Fields -/

/-- Fields behind the first one, and the end of the object. -/
theorem foldlM_fieldTokens (hstack : stack.length < maxOpen) {fields : List (String × Json)}
    (h : ∀ field ∈ fields, ReadsBack field.2) {before : List (String × Json)} {key : String}
    {value : Json} (hnd : (Entries.keys (before ++ (key, value) :: fields)).Nodup) :
    (fieldTokens false fields ++ [Token.closeObject]).foldlM step
        (.complete (.object before key :: stack) value) =
      within (stack.length + 1 + depthFields fields)
        (.complete stack (.obj (before ++ (key, value) :: fields))) := by
  have hnew : key ∉ Entries.keys before := by
    intro hmem
    rw [Entries.keys, List.map_append, List.nodup_append] at hnd
    exact hnd.2.2 key hmem key List.mem_cons_self rfl
  induction fields generalizing before key value with
  | nil =>
    rw [fieldTokens, depthFields, within_of_le hstack]
    show some (complete stack (.obj (Entries.insert key value before))) = _
    rw [Entries.insert_of_notMem hnew]
  | cons field rest ih =>
    obtain ⟨nextKey, nextValue⟩ := field
    rw [List.forall_mem_cons] at h
    rw [fieldTokens, depthFields, List.append_assoc, List.append_assoc, ← Nat.add_max_add_left]
    show (nextValue.tokens ++ _).foldlM step
      (.needValue (.object (Entries.insert key value before) nextKey :: stack)) = _
    rw [Entries.insert_of_notMem hnew, List.foldlM_append,
      h.1 (.object (before ++ [(key, value)]) nextKey :: stack) hstack]
    refine within_bind ?_
    have hsplit : before ++ (key, value) :: (nextKey, nextValue) :: rest =
        (before ++ [(key, value)]) ++ (nextKey, nextValue) :: rest := by
      rw [List.append_assoc, List.singleton_append]
    rw [hsplit] at hnd ⊢
    refine ih h.2 hnd ?_
    intro hmem
    rw [Entries.keys, List.map_append, List.nodup_append] at hnd
    exact hnd.2.2 nextKey hmem nextKey List.mem_cons_self rfl

/-- An object is read back if its keys are distinct and its values are read back. -/
theorem readsBack_obj {fields : List (String × Json)} (hnd : (Entries.keys fields).Nodup)
    (h : ∀ field ∈ fields, ReadsBack field.2) : ReadsBack (.obj fields) := by
  intro stack hstack
  rw [tokens, depth, List.foldlM_cons]
  by_cases hroom : stack.length < maxOpen
  · have hopen : step (.needValue stack) .openObject = some (.needFirstKey stack) := if_pos hroom
    rw [hopen]
    show (fieldTokens true fields ++ [Token.closeObject]).foldlM step (.needFirstKey stack) = _
    cases fields with
    | nil =>
      rw [fieldTokens, depthFields, within_of_le hroom]
      rfl
    | cons first rest =>
      obtain ⟨key, value⟩ := first
      rw [List.forall_mem_cons] at h
      rw [fieldTokens, depthFields, if_pos rfl, List.nil_append, List.append_assoc,
        List.append_assoc]
      show (value.tokens ++ _).foldlM step (.needValue (.object [] key :: stack)) = _
      rw [List.foldlM_append, h.1 (.object [] key :: stack) hroom]
      refine (within_bind (foldlM_fieldTokens hroom h.2 hnd)).trans ?_
      rw [List.length_cons, Nat.add_max_add_left, Nat.add_right_comm, Nat.add_assoc]
      rfl
  · have hopen : step (.needValue stack) .openObject = none := if_neg hroom
    rw [hopen, within, if_neg (by omega)]
    rfl

/-! ## Values -/

/-- A value that is one token is read back. -/
theorem readsBack_of_tokens {value : Json} {token : Token} (htokens : value.tokens = [token])
    (hdepth : value.depth = 0)
    (hstep : ∀ stack, step (.needValue stack) token = some (.complete stack value)) :
    ReadsBack value := by
  intro stack hstack
  rw [htokens, hdepth, Nat.add_zero, within_of_le hstack, List.foldlM_cons, hstep]
  rfl

/-- **Tokens are read back**, of every value without repeated keys. -/
theorem readsBack_of_distinctKeys {value : Json} (h : value.DistinctKeys) : ReadsBack value := by
  induction h with
  | null => exact readsBack_of_tokens (by rw [tokens]) rfl fun _ => rfl
  | bool value => exact readsBack_of_tokens (by rw [tokens]) rfl fun _ => rfl
  | num value => exact readsBack_of_tokens (by rw [tokens]) rfl fun _ => rfl
  | str value => exact readsBack_of_tokens (by rw [tokens]) rfl fun _ => rfl
  | arr _ ih => exact readsBack_arr ih
  | obj hnd _ ih => exact readsBack_obj hnd ih

end Reading

/-! ## Texts -/

/-- The tokens of a value stand for it, unless it is nested too deep. -/
theorem ofTokens?_tokens {value : Json} (h : value.DistinctKeys) :
    ofTokens? value.tokens = if value.depth ≤ maxOpen then some value else none := by
  rw [ofTokens?, Reading.readsBack_of_distinctKeys h [] (Nat.zero_le _), Reading.within,
    List.length_nil, Nat.zero_add]
  split <;> rfl

/-- **The round trip**: the pretty text of a value, as it is written to a file, is read back as the
value, unless it is nested too deep.  The value must not repeat a key in an object, and its numbers
must read back from their own spellings. -/
theorem ofString?_pretty {value : Json} (hkeys : value.DistinctKeys)
    (hnumbers : ∀ n ∈ value.numbers, n.ReadsBack) :
    ofString? (value.pretty ++ "\n") = if value.depth ≤ maxOpen then some value else none := by
  have hends : Lexer.EndsAtom ['\n'] := by
    rintro _ ⟨⟩
    rfl
  have hreads := (Lexer.reads_chars .pretty value hnumbers 0).append
    (Lexer.closed_blank (rfl : isBlank '\n' = true)).reads hends
  rw [List.append_nil] at hreads
  have htext : (value.pretty ++ "\n").toList = chars .pretty 0 value ++ ['\n'] := by
    rw [String.toList_append, pretty, String.toList_ofList]
    rfl
  rw [ofString?, htext, hreads.tokens?, Option.bind_some, ofTokens?_tokens hkeys]

end Json

end ScriptStore
