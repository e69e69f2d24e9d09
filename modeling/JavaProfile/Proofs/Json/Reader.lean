import JavaProfile.Json.Reader
import JavaProfile.Proofs.Json.Letter
import JavaProfile.Proofs.Json.Plain

/-!
Reading back what was written. A value whose strings are texts, whose objects have no key twice and
that is not nested beyond the limit is read from its text as it was, in both styles.
-/

namespace JavaProfile.Json

/-- Values that lie in at most `depth` lists and objects and that no text changes. -/
inductive Readable : (depth : ℕ) → Json → Prop
  | null {depth} : Readable depth null
  | bool {depth} (b : Bool) : Readable depth (bool b)
  | int {depth} {n : ℤ} (h : (toString n.natAbs).toList.length ≤ maxIntegerDigits) :
    Readable depth (int n)
  | double {depth} (x : Float) : Readable depth (double x)
  | text {depth} (s : String) : Readable depth (string s)
  | array {depth} {items : List Json} (h : ∀ v ∈ items, Readable depth v) :
    Readable (depth + 1) (array items)
  | object {depth} {fields : Fields} (hkeys : ∀ f ∈ fields, ∃ s : String, f.1 = s)
    (hnodup : (fields.map Prod.fst).Nodup) (h : ∀ f ∈ fields, Readable depth f.2) :
    Readable (depth + 1) (object fields)

/-! ### Objects without a key twice -/

theorem put_of_notMem {fields : Fields} {key : JsonString} (value : Json)
    (h : key ∉ fields.map Prod.fst) : put fields key value = fields ++ [(key, value)] := by
  induction fields with
  | nil => rfl
  | cons f fields ih =>
    simp only [List.map_cons, List.mem_cons, not_or] at h
    rw [put, if_neg (Ne.symm h.1), ih h.2]
    rfl

theorem foldl_put {fields members : Fields} (h : ((fields ++ members).map Prod.fst).Nodup) :
    members.foldl (fun fields m => put fields m.1 m.2) fields = fields ++ members := by
  induction members generalizing fields with
  | nil => simp
  | cons m members ih =>
    have hnew : m.1 ∉ fields.map Prod.fst := by
      intro hmem
      rw [List.map_append, List.map_cons, List.nodup_append] at h
      exact h.2.2 m.1 hmem m.1 List.mem_cons_self rfl
    rw [List.foldl_cons, put_of_notMem m.2 hnew, ih (by simpa using h)]
    simp

theorem collect_of_nodup {fields : Fields} (h : (fields.map Prod.fst).Nodup) :
    collect fields = fields :=
  foldl_put h

/-! ### Between the parts -/

variable {style : Style} {level depth fuel : ℕ} {rest : List Char}

theorem skip_newLine (level : ℕ) (rest : List Char) :
    skip (newLine level ++ rest) = skip rest := by
  have hblank : ∀ c ∈ newLine level, isSeparator c := by
    intro c hc
    rcases List.mem_cons.mp hc with rfl | hc
    · rfl
    · rw [List.eq_of_mem_replicate hc]
      rfl
  exact List.dropWhile_append_of_pos hblank

theorem skip_cons {c : Char} {cs : List Char} (h : isSeparator c = false) :
    skip (c :: cs) = c :: cs := by
  rw [skip, List.dropWhile_cons_of_neg (by simp [h])]

theorem quote_text (ascii : Bool) (s : String) (rest : List Char) :
    quote ascii s ++ rest = '"' :: (s.toList.flatMap (escapeChar ascii) ++ '"' :: rest) := by
  have hletters : (JsonString.text s).letters.flatMap (escapeLetter ascii) =
      s.toList.flatMap (escapeChar ascii) := by
    rw [JsonString.letters, List.flatMap_map]
    rfl
  rw [quote, hletters]
  simp

theorem ends_renderItems (style : Style) (level : ℕ) (items : List Json) (rest : List Char) :
    Ends (renderItems style level items rest) := by
  cases items <;> rintro c ⟨⟩ <;> decide

theorem ends_renderFields (style : Style) (level : ℕ) (fields : Fields) (rest : List Char) :
    Ends (renderFields style level fields rest) := by
  cases fields <;> rintro c ⟨⟩ <;> decide

/-! ### Where a value starts -/

/-- A text starts with a value: what follows is shorter, and no bracket closes here. -/
def Starts (text rest : List Char) : Prop :=
  ∃ c cs, text = c :: cs ∧ isSeparator c = false ∧ c ≠ ']' ∧ c ≠ '\uFEFF' ∧
    rest.length ≤ cs.length

theorem renderItems_length {items : List Json} (rest : List Char)
    (h : ∀ v ∈ items, ∀ rest, Starts (render style (level + 1) v rest) rest) :
    rest.length < (renderItems style level items rest).length := by
  induction items with
  | nil =>
    simp only [renderItems, newLine, List.cons_append, List.length_cons, List.length_append]
    omega
  | cons v items ih =>
    have hitems := ih fun w hw => h w (List.mem_cons_of_mem v hw)
    obtain ⟨c, cs, heq, -, -, -, hlength⟩ :=
      h v List.mem_cons_self (renderItems style level items rest)
    rw [renderItems, heq]
    simp only [List.length_cons, List.length_append]
    omega

theorem renderFields_length {fields : Fields} (rest : List Char)
    (h : ∀ f ∈ fields, ∀ rest, Starts (render style (level + 1) f.2 rest) rest) :
    rest.length < (renderFields style level fields rest).length := by
  induction fields with
  | nil =>
    simp only [renderFields, newLine, List.cons_append, List.length_cons, List.length_append]
    omega
  | cons f fields ih =>
    obtain ⟨k, v⟩ := f
    have hfields := ih fun w hw => h w (List.mem_cons_of_mem _ hw)
    obtain ⟨c, cs, heq, -, -, -, hlength⟩ :=
      h (k, v) List.mem_cons_self (renderFields style level fields rest)
    rw [renderFields, heq]
    simp only [List.length_cons, List.length_append]
    omega

theorem render_number (n : Number) :
    render style level (number n) rest = (n.write style.numbers).toList ++ rest := by
  rw [render]

theorem starts_number (hstyle : Named style.numbers) (n : Number) :
    Starts (render style level (number n) rest) rest := by
  obtain ⟨c, cs, heq, hc⟩ := write_cons hstyle n
  rw [render_number, heq]
  rcases hc with hc | rfl | rfl | rfl
  · have hsep : isSeparator c = false := by
      simp [isSeparator, (digit_ne hc (d := ' ') rfl).symm, (digit_ne hc (d := '\t') rfl).symm,
        (digit_ne hc (d := '\n') rfl).symm, (digit_ne hc (d := '\r') rfl).symm]
    exact ⟨c, cs ++ rest, rfl, hsep, (digit_ne hc rfl).symm, (digit_ne hc rfl).symm, by simp⟩
  · exact ⟨'-', cs ++ rest, rfl, rfl, by decide, by decide, by simp⟩
  · exact ⟨'N', cs ++ rest, rfl, rfl, by decide, by decide, by simp⟩
  · exact ⟨'I', cs ++ rest, rfl, rfl, by decide, by decide, by simp⟩

theorem starts_render (hstyle : Named style.numbers) {v : Json} (hv : Readable depth v)
    (level : ℕ) (rest : List Char) : Starts (render style level v rest) rest := by
  induction hv generalizing level rest with
  | null =>
    refine ⟨'n', _, rfl, rfl, by decide, by decide, ?_⟩
    simp only [List.length_cons]
    omega
  | bool b =>
    cases b <;> refine ⟨_, _, rfl, rfl, by decide, by decide, ?_⟩ <;> simp only [List.length_cons] <;> omega
  | int => exact starts_number hstyle _
  | double x => exact starts_number hstyle _
  | text s =>
    rw [render, quote_text]
    refine ⟨'"', _, rfl, rfl, by decide, by decide, ?_⟩
    simp only [List.length_append, List.length_cons]
    omega
  | @array _ items _ ih =>
    cases items with
    | nil => exact ⟨'[', _, rfl, rfl, by decide, by simp⟩
    | cons v vs =>
      have hitems := renderItems_length rest fun w hw =>
        ih w (List.mem_cons_of_mem v hw) (level + 1)
      obtain ⟨c, cs, heq, -, -, -, hlength⟩ :=
        ih v List.mem_cons_self (level + 1) (renderItems style level vs rest)
      rw [render, heq]
      refine ⟨'[', newLine (level + 1) ++ c :: cs, rfl, rfl, by decide, by decide, ?_⟩
      simp only [List.length_append, List.length_cons]
      omega
  | @object _ fields _ _ _ ih =>
    cases fields with
    | nil => exact ⟨'\x7b', _, rfl, rfl, by decide, by simp⟩
    | cons f fs =>
      obtain ⟨k, v⟩ := f
      have hfields := renderFields_length rest fun w hw =>
        ih w (List.mem_cons_of_mem _ hw) (level + 1)
      obtain ⟨c, cs, heq, -, -, -, hlength⟩ :=
        ih (k, v) List.mem_cons_self (level + 1) (renderFields style level fs rest)
      rw [render, heq]
      refine ⟨'\x7b', newLine (level + 1) ++ quote style.ascii k ++ ':' :: ' ' :: c :: cs, rfl,
        rfl, by decide, by decide, ?_⟩
      simp only [List.length_append, List.length_cons]
      omega

/-! ### Reading the parts -/

theorem readItems_last {v : Json} {cs after : List Char}
    (hvalue : readValue fuel depth cs = .ok (v, after)) (hclose : skip after = ']' :: rest) :
    readItems (fuel + 1) depth cs = .ok ([v], rest) := by
  rw [readItems, hvalue]
  simp only [bind, Except.bind, hclose]
  rfl

theorem readItems_more {v : Json} {vs : List Json} {cs after next : List Char}
    (hvalue : readValue fuel depth cs = .ok (v, after)) (hcomma : skip after = ',' :: next)
    (htail : readItems fuel depth (skip next) = .ok (vs, rest)) :
    readItems (fuel + 1) depth cs = .ok (v :: vs, rest) := by
  rw [readItems, hvalue]
  simp only [bind, Except.bind, hcomma]
  change Except.bind (readItems fuel depth (skip next)) _ = _
  rw [htail]
  rfl

theorem readMembers_last {k : JsonString} {v : Json} {cs afterKey text after : List Char}
    (hkey : readString fuel cs = .ok (k, afterKey)) (hcolon : skip afterKey = ':' :: text)
    (hvalue : readValue fuel depth (skip text) = .ok (v, after))
    (hclose : skip after = '\x7d' :: rest) :
    readMembers (fuel + 1) depth ('"' :: cs) = .ok ([(k, v)], rest) := by
  rw [readMembers]
  simp only [bind, Except.bind, hkey, hcolon]
  change Except.bind (readValue fuel depth (skip text)) _ = _
  simp only [hvalue, Except.bind, hclose]
  rfl

theorem readMembers_more {k : JsonString} {v : Json} {fs : Fields}
    {cs afterKey text after next : List Char}
    (hkey : readString fuel cs = .ok (k, afterKey)) (hcolon : skip afterKey = ':' :: text)
    (hvalue : readValue fuel depth (skip text) = .ok (v, after))
    (hcomma : skip after = ',' :: next)
    (htail : readMembers fuel depth (skip next) = .ok (fs, rest)) :
    readMembers (fuel + 1) depth ('"' :: cs) = .ok ((k, v) :: fs, rest) := by
  rw [readMembers]
  simp only [bind, Except.bind, hkey, hcolon]
  change Except.bind (readValue fuel depth (skip text)) _ = _
  simp only [hvalue, Except.bind, hcomma]
  change Except.bind (readMembers fuel depth (skip next)) _ = _
  rw [htail]
  rfl

/-! ### Lists and objects -/

/-- The text of a value reads as that value, whatever ends it. -/
def ReadsBack (style : Style) (level depth : ℕ) (v : Json) : Prop :=
  ∀ fuel rest, Ends rest → 2 * (render style level v rest).length ≤ fuel →
    readValue fuel depth (render style level v rest) = .ok (v, rest)

theorem skip_starts {text : List Char} (h : Starts text rest) (level : ℕ) :
    skip (newLine level ++ text) = text := by
  obtain ⟨c, cs, rfl, hc, -, -, -⟩ := h
  rw [skip_newLine, skip_cons hc]

theorem skip_blank {text : List Char} (h : Starts text rest) : skip (' ' :: text) = text := by
  obtain ⟨c, cs, rfl, hc, -, -, -⟩ := h
  rw [skip, List.dropWhile_cons_of_pos (by rfl)]
  exact skip_cons hc

theorem readItems_render {v : Json} {vs : List Json}
    (hstarts : ∀ w ∈ v :: vs, ∀ rest, Starts (render style (level + 1) w rest) rest)
    (hreads : ∀ w ∈ v :: vs, ReadsBack style (level + 1) depth w)
    (hfuel : 2 * (render style (level + 1) v (renderItems style level vs rest)).length < fuel) :
    readItems fuel depth (render style (level + 1) v (renderItems style level vs rest)) =
      .ok (v :: vs, rest) := by
  induction vs generalizing v fuel with
  | nil =>
    obtain ⟨k, rfl⟩ : ∃ k, fuel = k + 1 := ⟨fuel - 1, by omega⟩
    apply readItems_last
    · exact hreads v List.mem_cons_self k _ (ends_renderItems style level [] rest) (by omega)
    · rw [renderItems, skip_newLine, skip_cons (by rfl)]
  | cons w vs ih =>
    obtain ⟨k, rfl⟩ : ∃ k, fuel = k + 1 := ⟨fuel - 1, by omega⟩
    have hw := hstarts w (by simp) (renderItems style level vs rest)
    obtain ⟨c, cs, heq, -, -, -, hlength⟩ :=
      hstarts v List.mem_cons_self (renderItems style level (w :: vs) rest)
    apply readItems_more
    · exact hreads v List.mem_cons_self k _ (ends_renderItems style level (w :: vs) rest)
        (by omega)
    · rw [renderItems, List.cons_append, skip_cons (by rfl)]
    · rw [skip_starts hw]
      apply ih (fun x hx => hstarts x (List.mem_cons_of_mem v hx))
        fun x hx => hreads x (List.mem_cons_of_mem v hx)
      rw [heq] at hfuel
      simp only [renderItems, List.length_append, List.length_cons] at hfuel hlength
      omega

theorem length_le_escape (ascii : Bool) (cs : List Char) :
    cs.length ≤ (cs.flatMap (escapeChar ascii)).length := by
  induction cs with
  | nil => simp
  | cons c cs ih =>
    have hunits : 1 ≤ (escapeUnits c).length := by
      unfold escapeUnits
      dsimp only
      split <;> simp [escapeUnit]
    have hone : 1 ≤ (escapeChar ascii c).length := by
      unfold escapeChar
      split_ifs <;> simp [escapeUnit, hunits]
    rw [List.flatMap_cons, List.length_append, List.length_cons]
    omega

theorem readMembers_render {k : JsonString} {v : Json} {fs : Fields}
    (hkeys : ∀ f ∈ (k, v) :: fs, ∃ s : String, f.1 = s)
    (hstarts : ∀ f ∈ (k, v) :: fs, ∀ rest, Starts (render style (level + 1) f.2 rest) rest)
    (hreads : ∀ f ∈ (k, v) :: fs, ReadsBack style (level + 1) depth f.2)
    (hfuel : 2 * (quote style.ascii k ++ ':' :: ' ' :: render style (level + 1) v
      (renderFields style level fs rest)).length < fuel) :
    readMembers fuel depth (quote style.ascii k ++ ':' :: ' ' :: render style (level + 1) v
      (renderFields style level fs rest)) = .ok ((k, v) :: fs, rest) := by
  induction fs generalizing k v fuel with
  | nil =>
    obtain ⟨s, rfl⟩ := hkeys (k, v) List.mem_cons_self
    obtain ⟨n, rfl⟩ : ∃ n, fuel = n + 1 := ⟨fuel - 1, by omega⟩
    have hescape := length_le_escape style.ascii s.toList
    rw [quote_text] at hfuel ⊢
    simp only [List.length_cons, List.length_append] at hfuel
    apply readMembers_last (readString_quote style.ascii s n _ (by omega)) (skip_cons (by rfl))
    · rw [skip_blank (hstarts (.text s, v) List.mem_cons_self _)]
      exact hreads (.text s, v) List.mem_cons_self n _ (ends_renderFields style level [] rest)
        (by dsimp only; omega)
    · rw [renderFields, skip_newLine, skip_cons (by rfl)]
  | cons f fs ih =>
    obtain ⟨k', v'⟩ := f
    obtain ⟨s, rfl⟩ := hkeys (k, v) List.mem_cons_self
    obtain ⟨n, rfl⟩ : ∃ n, fuel = n + 1 := ⟨fuel - 1, by omega⟩
    have hescape := length_le_escape style.ascii s.toList
    have hv := hstarts (.text s, v) List.mem_cons_self
      (renderFields style level ((k', v') :: fs) rest)
    rw [quote_text] at hfuel ⊢
    simp only [List.length_cons, List.length_append] at hfuel
    apply readMembers_more (readString_quote style.ascii s n _ (by omega)) (skip_cons (by rfl))
    · rw [skip_blank hv]
      exact hreads (.text s, v) List.mem_cons_self n _
        (ends_renderFields style level ((k', v') :: fs) rest) (by dsimp only; omega)
    · rw [renderFields, List.cons_append, List.cons_append, skip_cons (by rfl)]
    · rw [List.append_assoc, skip_newLine]
      obtain ⟨s', rfl⟩ := hkeys (k', v') (by simp)
      have hquote := @skip_cons '"' (s'.toList.flatMap (escapeChar style.ascii) ++
        '"' :: ':' :: ' ' :: render style (level + 1) v' (renderFields style level fs rest)) (by rfl)
      rw [← quote_text] at hquote
      rw [hquote]
      apply ih (fun x hx => hkeys x (List.mem_cons_of_mem _ hx))
        (fun x hx => hstarts x (List.mem_cons_of_mem _ hx))
        fun x hx => hreads x (List.mem_cons_of_mem _ hx)
      obtain ⟨c, cs, heq, -, -, -, hlength⟩ := hv
      rw [heq] at hfuel
      simp only [renderFields, List.length_append, List.length_cons] at hfuel hlength ⊢
      omega

/-! ### Values and texts -/

theorem readValue_plain {c : Char} {cs : List Char} (hquote : c ≠ '"') (hlist : c ≠ '[')
    (hobject : c ≠ '\x7b') (fuel depth : ℕ) :
    readValue (fuel + 1) depth (c :: cs) = readPlain (c :: cs) := by
  rw [readValue.eq_def]
  dsimp only
  rw [if_neg hquote, if_neg hlist, if_neg hobject]

theorem readValue_array {items : List Json} {text cs : List Char} {c : Char}
    (hskip : skip text = c :: cs) (hc : c ≠ ']')
    (hitems : readItems fuel depth (c :: cs) = .ok (items, rest)) :
    readValue (fuel + 1) (depth + 1) ('[' :: text) = .ok (array items, rest) := by
  rw [readValue.eq_def]
  dsimp only
  rw [if_neg (by decide), if_pos rfl, hskip]
  split
  · contradiction
  · next hlist => exact absurd (List.cons.inj hlist).1 hc
  · next hdepth _ =>
    obtain rfl := Nat.succ.inj hdepth
    rw [hitems]
    rfl

theorem readValue_object {fields : Fields} {text cs : List Char} (hskip : skip text = '"' :: cs)
    (hmembers : readMembers fuel depth ('"' :: cs) = .ok (fields, rest)) :
    readValue (fuel + 1) (depth + 1) ('\x7b' :: text) = .ok (object (collect fields), rest) := by
  rw [readValue.eq_def]
  dsimp only
  rw [if_neg (by decide), if_neg (by decide), if_pos rfl, hskip]
  split
  · contradiction
  · next hlist => exact absurd (List.cons.inj hlist).1 (by decide)
  · next hdepth _ =>
    obtain rfl := Nat.succ.inj hdepth
    rw [hmembers]
    rfl

theorem number_reads (hstyle : Named style.numbers) {n : Number} (level depth : ℕ)
    (hread : ∀ rest, Ends rest →
      readPlain ((n.write style.numbers).toList ++ rest) = .ok (number n, rest)) :
    ReadsBack style level depth (number n) := by
  intro fuel rest hends hfuel
  obtain ⟨c, cs, heq, hc⟩ := write_cons hstyle n
  have hplain := hread rest hends
  rw [render_number] at hfuel ⊢
  rw [heq] at hplain hfuel ⊢
  rw [List.cons_append, List.length_cons] at hfuel
  obtain ⟨k, rfl⟩ : ∃ k, fuel = k + 1 := ⟨fuel - 1, by omega⟩
  rw [List.cons_append, readValue_plain, ← List.cons_append, hplain]
  · rcases hc with hc | rfl | rfl | rfl
    · exact (digit_ne hc rfl).symm
    all_goals decide
  · rcases hc with hc | rfl | rfl | rfl
    · exact (digit_ne hc rfl).symm
    all_goals decide
  · rcases hc with hc | rfl | rfl | rfl
    · exact (digit_ne hc rfl).symm
    all_goals decide

theorem text_reads (style : Style) (level depth : ℕ) (s : String) :
    ReadsBack style level depth (string s) := by
  intro fuel rest _ hfuel
  have hescape := length_le_escape style.ascii s.toList
  rw [render, quote_text] at hfuel ⊢
  simp only [List.length_cons, List.length_append] at hfuel
  obtain ⟨k, rfl⟩ : ∃ k, fuel = k + 1 := ⟨fuel - 1, by omega⟩
  rw [readValue.eq_def]
  dsimp only
  rw [if_pos rfl, readString_quote style.ascii s k rest (by omega)]
  rfl

theorem array_reads {v : Json} {vs : List Json}
    (hstarts : ∀ w ∈ v :: vs, ∀ rest, Starts (render style (level + 1) w rest) rest)
    (hreads : ∀ w ∈ v :: vs, ReadsBack style (level + 1) depth w) :
    ReadsBack style level (depth + 1) (array (v :: vs)) := by
  intro fuel rest _ hfuel
  rw [render] at hfuel ⊢
  simp only [List.length_cons, List.length_append] at hfuel
  obtain ⟨k, rfl⟩ : ∃ k, fuel = k + 1 := ⟨fuel - 1, by omega⟩
  have hv := hstarts v List.mem_cons_self (renderItems style level vs rest)
  have hread := @readItems_render style level _ k rest v vs hstarts hreads (by omega)
  have hskip := skip_starts hv (level + 1)
  obtain ⟨c, cs, heq, -, hc, -, -⟩ := hv
  rw [heq] at hread
  rw [List.cons_append]
  exact readValue_array (hskip.trans heq) hc hread

theorem object_reads {key : JsonString} {v : Json} {fs : Fields}
    (hkeys : ∀ f ∈ (key, v) :: fs, ∃ s : String, f.1 = s)
    (hnodup : (((key, v) :: fs).map Prod.fst).Nodup)
    (hstarts : ∀ f ∈ (key, v) :: fs, ∀ rest, Starts (render style (level + 1) f.2 rest) rest)
    (hreads : ∀ f ∈ (key, v) :: fs, ReadsBack style (level + 1) depth f.2) :
    ReadsBack style level (depth + 1) (object ((key, v) :: fs)) := by
  intro fuel rest _ hfuel
  obtain ⟨s, hs⟩ := hkeys (key, v) List.mem_cons_self
  obtain rfl : key = .text s := hs
  rw [render] at hfuel ⊢
  rw [List.append_assoc] at hfuel ⊢
  simp only [List.length_cons, List.length_append] at hfuel
  obtain ⟨k, rfl⟩ : ∃ k, fuel = k + 1 := ⟨fuel - 1, by omega⟩
  have hread := @readMembers_render style level _ k rest (.text s) v fs hkeys hstarts hreads (by
    simp only [List.length_cons, List.length_append]
    omega)
  have hskip := skip_newLine (level + 1) (quote style.ascii s ++
    ':' :: ' ' :: render style (level + 1) v (renderFields style level fs rest))
  rw [quote_text] at hread hskip ⊢
  rw [skip_cons (by rfl)] at hskip
  have hobject := readValue_object hskip hread
  rwa [collect_of_nodup hnodup] at hobject

theorem readValue_render (hstyle : Named style.numbers) {v : Json} (hv : Readable depth v)
    (level : ℕ) : ReadsBack style level depth v := by
  -- Two steps of fuel for each character are enough: one for the value, one for the list or object
  -- around it.
  induction hv generalizing level with
  | null =>
    intro fuel rest _ hfuel
    obtain ⟨k, rfl⟩ : ∃ k, fuel = k + 1 := ⟨fuel - 1, by simp [render] at hfuel; omega⟩
    rfl
  | bool b =>
    intro fuel rest _ hfuel
    obtain ⟨k, rfl⟩ : ∃ k, fuel = k + 1 :=
      ⟨fuel - 1, by cases b <;> simp [render] at hfuel <;> omega⟩
    cases b <;> rfl
  | int h => exact number_reads hstyle level _ fun rest hends => readPlain_int h hends
  | double x => exact number_reads hstyle level _ fun rest hends => readPlain_double hstyle x hends
  | text s => exact text_reads style level _ s
  | @array _ items hitems ih =>
    cases items with
    | nil =>
      intro fuel rest _ hfuel
      obtain ⟨k, rfl⟩ : ∃ k, fuel = k + 1 := ⟨fuel - 1, by simp [render] at hfuel; omega⟩
      rfl
    | cons v vs =>
      exact array_reads (fun w hw => starts_render hstyle (hitems w hw) (level + 1))
        fun w hw => ih w hw (level + 1)
  | @object _ fields hkeys hnodup hfields ih =>
    cases fields with
    | nil =>
      intro fuel rest _ hfuel
      obtain ⟨k, rfl⟩ : ∃ k, fuel = k + 1 := ⟨fuel - 1, by simp [render] at hfuel; omega⟩
      rfl
    | cons f fs =>
      exact object_reads hkeys hnodup
        (fun w hw => starts_render hstyle (hfields w hw) (level + 1))
        fun w hw => ih w hw (level + 1)

/-- Reading what was written gives the value back. -/
theorem read_write (hstyle : Named style.numbers) {v : Json} (hv : Readable maxDepth v) :
    read (write style v) = .ok v := by
  obtain ⟨c, cs, heq, hc, -, hmark, -⟩ := starts_render hstyle hv 0 []
  have hread := readValue_render hstyle hv 0
    (2 * (render style 0 v []).length + 1) [] (by rintro c ⟨⟩) (by omega)
  have htext : readText (render style 0 v []) = .ok v := by
    rw [readText, if_neg (by simpa [heq] using hmark), heq, skip_cons hc, ← heq, hread]
    rfl
  rw [read, write, String.toList_ofList, htext]

/-! ### Carriage returns -/

theorem notMem_newLine (level : ℕ) : '\r' ∉ newLine level := by
  intro h
  rcases List.mem_cons.mp h with h | h
  · exact absurd h (by decide)
  · exact absurd (List.eq_of_mem_replicate h) (by decide)

theorem notMem_quote (ascii : Bool) (s : String) : '\r' ∉ quote ascii s := by
  have hquote := quote_text ascii s []
  rw [List.append_nil] at hquote
  rw [hquote]
  simp only [List.mem_cons, List.mem_append, List.mem_flatMap, List.not_mem_nil, or_false, not_or]
  refine ⟨by decide, ?_, by decide⟩
  rintro ⟨c, -, hc⟩
  exact notMem_escapeChar ascii c hc

theorem notMem_renderItems {items : List Json} (hrest : '\r' ∉ rest)
    (h : ∀ v ∈ items, ∀ rest, '\r' ∉ rest → '\r' ∉ render style (level + 1) v rest) :
    '\r' ∉ renderItems style level items rest := by
  induction items with
  | nil => simp [renderItems, notMem_newLine, hrest]
  | cons v items ih =>
    have hitems := ih fun w hw => h w (List.mem_cons_of_mem v hw)
    simp [renderItems, notMem_newLine, h v List.mem_cons_self _ hitems]

theorem notMem_renderFields {fields : Fields} (hrest : '\r' ∉ rest)
    (hkeys : ∀ f ∈ fields, ∃ s : String, f.1 = s)
    (h : ∀ f ∈ fields, ∀ rest, '\r' ∉ rest → '\r' ∉ render style (level + 1) f.2 rest) :
    '\r' ∉ renderFields style level fields rest := by
  induction fields with
  | nil => simp [renderFields, notMem_newLine, hrest]
  | cons f fields ih =>
    obtain ⟨k, v⟩ := f
    obtain ⟨s, hs⟩ := hkeys (k, v) List.mem_cons_self
    obtain rfl : k = .text s := hs
    have hfields := ih (fun w hw => hkeys w (List.mem_cons_of_mem _ hw))
      fun w hw => h w (List.mem_cons_of_mem _ hw)
    simp [renderFields, notMem_newLine, notMem_quote, h _ List.mem_cons_self _ hfields]

/-- No text of a value has a carriage return, as strings have theirs as escapes. -/
theorem notMem_render (hstyle : Named style.numbers) {v : Json} (hv : Readable depth v)
    (level : ℕ) (rest : List Char) (hrest : '\r' ∉ rest) : '\r' ∉ render style level v rest := by
  induction hv generalizing level rest with
  | null => simp [render, hrest]
  | bool b => cases b <;> simp [render, hrest]
  | int =>
    rw [int, render_number, List.mem_append, not_or]
    exact ⟨notMem_write hstyle _, hrest⟩
  | double x =>
    rw [double, render_number, List.mem_append, not_or]
    exact ⟨notMem_write hstyle _, hrest⟩
  | text s => simp [render, notMem_quote, hrest]
  | @array _ items _ ih =>
    cases items with
    | nil => simp [render, hrest]
    | cons v vs =>
      have hitems : '\r' ∉ renderItems style level vs rest :=
        notMem_renderItems hrest fun w hw => ih w (List.mem_cons_of_mem v hw) (level + 1)
      simp [render, notMem_newLine, ih v List.mem_cons_self (level + 1) _ hitems]
  | @object _ fields hkeys _ _ ih =>
    cases fields with
    | nil => simp [render, hrest]
    | cons f fs =>
      obtain ⟨k, v⟩ := f
      obtain ⟨s, hs⟩ := hkeys (k, v) List.mem_cons_self
      obtain rfl : k = .text s := hs
      have hfields : '\r' ∉ renderFields style level fs rest :=
        notMem_renderFields hrest (fun w hw => hkeys w (List.mem_cons_of_mem _ hw))
          fun w hw => ih w (List.mem_cons_of_mem _ hw) (level + 1)
      simp [render, notMem_newLine, notMem_quote, ih _ List.mem_cons_self (level + 1) _ hfields]

end JavaProfile.Json
