import Coinage.Proofs.Authority
import Coinage.Proofs.Chronicle

/-! Commands about different denoms. What a command comes to depends on the admin of its denom and on
what everybody has of it, and changes nothing of any other denom. Only the list of a creator has to do
with more than one. So two commands about different denoms come to the same in either order, unless
both are creations of the same sender. -/

namespace Coinage

open Registry Book Deed Entry

/-! ### Balances -/

namespace Ledger

/-- What everybody has of a denom. -/
def of (l : Ledger) (denom : String) : String → Option Int := fun address =>
  l.amounts.get? ⟨address, denom⟩

theorem ext_of {l l' : Ledger} (h : ∀ denom, l.of denom = l'.of denom) : l = l' := by
  cases l
  cases l'
  exact congrArg mk (Table.ext_get? fun holding => congrFun (h holding.denom) holding.address)

variable {l l' : Ledger} {denom : String}

theorem of_insert (l : Ledger) (address denom : String) (amount : Int) :
    (mk (l.amounts.insert ⟨address, denom⟩ amount)).of denom =
      Function.update (l.of denom) address (some amount) := by
  funext address'
  simp [of, Table.get?_insert, Function.update_apply]

theorem of_erase (l : Ledger) (address denom : String) :
    (mk (l.amounts.erase ⟨address, denom⟩)).of denom =
      Function.update (l.of denom) address none := by
  funext address'
  simp [of, Table.get?_erase, Function.update_apply]

theorem of_credit (l : Ledger) (address denom : String) (amount : Int) :
    (l.credit ⟨address, denom⟩ amount).of denom =
      Function.update (l.of denom) address (some ((l.of denom address).getD 0 + amount)) :=
  of_insert l address denom _

/-- Whether a debit goes through, and what is left, depends on nothing but the denom. -/
theorem of_debit_congr (h : l.of denom = l'.of denom) (address : String) (amount : Int) :
    (l.debit ⟨address, denom⟩ amount).map (·.of denom) =
      (l'.debit ⟨address, denom⟩ amount).map (·.of denom) := by
  have hget : l.amounts.get? ⟨address, denom⟩ = l'.amounts.get? ⟨address, denom⟩ :=
    congrFun h address
  unfold debit balance
  rw [hget]
  dsimp only
  split_ifs with hshort hpart hnone
  · rfl
  · simp only [Except.map, of_insert, h]
  · rfl
  · simp only [Except.map, of_erase, h]

theorem of_apply_congr {m : Movement} (h : l.of m.denom = l'.of m.denom) :
    (l.apply m).map (·.of m.denom) = (l'.apply m).map (·.of m.denom) := by
  cases m with
  | mint denom amount recipient =>
      refine congrArg Except.ok ?_
      change (l.credit _ amount).of denom = (l'.credit _ amount).of denom
      rw [of_credit, of_credit, show l.of denom = l'.of denom from h]
  | burn denom amount holder => exact of_debit_congr h holder amount
  | transfer denom amount source target =>
      have hdebit : (l.debit ⟨source, denom⟩ amount).map (·.of denom) =
        (l'.debit ⟨source, denom⟩ amount).map (·.of denom) := of_debit_congr h source amount
      simp only [apply, Movement.denom]
      rcases hl : l.debit ⟨source, denom⟩ amount with e | middle <;>
        rcases hl' : l'.debit ⟨source, denom⟩ amount with e' | middle' <;> rw [hl, hl'] at hdebit
      · exact hdebit
      · cases hdebit
      · cases hdebit
      · refine congrArg Except.ok ?_
        change (middle.credit _ amount).of denom = (middle'.credit _ amount).of denom
        rw [of_credit, of_credit, show middle.of denom = middle'.of denom from Except.ok.inj hdebit]

end Ledger

/-- The denom that a deed is about, by its text. -/
def Deed.denom : Deed → String
  | .created d _ | .handedOver d _ | .described d _ => d.text
  | .moved m => m.denom

namespace Ledger

variable {l l' : Ledger} {deed deed' : Deed} {denom : String}

theorem of_after_of_ne (l : Ledger) (h : deed.denom ≠ denom) : (l.after deed).of denom = l.of denom := by
  cases deed with
  | moved m => exact funext fun address => get?_after_moved fun heq => absurd heq.symm h
  | created | handedOver | described => rfl

theorem of_after_congr (h : l.of denom = l'.of denom) (deed : Deed) :
    (l.after deed).of denom = (l'.after deed).of denom := by
  by_cases hdenom : deed.denom = denom
  · subst hdenom
    cases deed with
    | created | handedOver | described => exact h
    | moved m =>
        change l.of m.denom = l'.of m.denom at h
        have happly := of_apply_congr h
        simp only [after, Deed.denom]
        rcases hl : l.apply m with e | middle <;> rcases hl' : l'.apply m with e' | middle' <;>
          rw [hl, hl'] at happly
        · exact h
        · cases happly
        · cases happly
        · exact Except.ok.inj happly
  · rw [of_after_of_ne l hdenom, of_after_of_ne l' hdenom, h]

/-- Deeds about different denoms make the same of a ledger in either order. -/
theorem after_comm (l : Ledger) (h : deed.denom ≠ deed'.denom) :
    (l.after deed).after deed' = (l.after deed').after deed := by
  refine ext_of fun denom => ?_
  by_cases hdenom : deed.denom = denom
  · have hother : deed'.denom ≠ denom := fun heq => h (hdenom.trans heq.symm)
    rw [of_after_of_ne _ hother]
    exact of_after_congr (of_after_of_ne l hother).symm deed
  · rw [of_after_of_ne (l.after deed') hdenom]
    exact of_after_congr (of_after_of_ne l hdenom) deed'

end Ledger

/-! ### Entries -/

namespace Deed

variable {deed : Deed} {d : Denom}

theorem newAdmin?_of_ne (h : deed.denom ≠ d.text) : deed.newAdmin? d = none := by
  cases deed with
  | handedOver d' a => exact if_neg fun heq => h (congrArg Denom.text heq)
  | created | described | moved => rfl

theorem newMetadata?_of_ne (h : deed.denom ≠ d.text) : deed.newMetadata? d = none := by
  cases deed with
  | described d' m => exact if_neg fun heq => h (congrArg Denom.text heq)
  | created | handedOver | moved => rfl

theorem metadataGiven?_of_ne (h : deed.denom ≠ d.text) : deed.metadataGiven? d = none := by
  cases deed with
  | created d' m => exact if_neg fun heq => h (congrArg Denom.text heq)
  | handedOver | described | moved => rfl

theorem created?_of_ne (h : deed.denom ≠ d.text) : deed.created? ≠ some d := by
  cases deed with
  | created d' m =>
      rintro ⟨⟩
      exact h rfl
  | handedOver | described | moved => exact fun hnone => by cases hnone

/-- Neither deed depends on the other one: they are about different denoms, and not both are entered
in the list of the same creator. -/
structure Apart (x y : Deed) : Prop where
  denom : x.denom ≠ y.denom
  creator : ∀ d d', x.created? = some d → y.created? = some d' → d.creator ≠ d'.creator

end Deed

namespace Book

variable {deeds : List Deed} {x y : Deed} {d : Denom}

theorem admin_concat_of_ne (h : x.denom ≠ d.text) :
    (ofDeeds (deeds ++ [x])).admin d = (ofDeeds deeds).admin d := by
  have hcreated := created?_of_ne h
  simp [admin_ofDeeds, creations_concat, lastAdmin_concat, newAdmin?_of_ne h, hcreated]

/-- **A book does not show in which order deeds were done that are apart.** -/
theorem ofDeeds_swap (h : x.Apart y) : ofDeeds (deeds ++ [x] ++ [y]) = ofDeeds (deeds ++ [y] ++ [x]) := by
  have hdenom : ∀ d : Denom, x.denom ≠ d.text ∨ y.denom ≠ d.text := fun d =>
    not_and_or.mp fun hboth => h.denom (hboth.1.trans hboth.2.symm)
  apply Book.ext
  · funext d
    simp only [admin_ofDeeds, creations_concat, lastAdmin_concat]
    rcases hdenom d with hne | hne <;> simp [newAdmin?_of_ne hne, or_comm]
  · funext d
    simp only [metadata_ofDeeds, lastMetadata_concat, firstMetadata_concat]
    rcases hdenom d with hne | hne <;> simp [newMetadata?_of_ne hne, metadataGiven?_of_ne hne]
  · funext c
    simp only [created_ofDeeds, creations_concat, List.filter_append]
    cases hx : x.created? with
    | none => simp
    | some d =>
        cases hy : y.created? with
        | none => simp
        | some d' =>
            have hcreator := h.creator d d' hx hy
            by_cases hc : d.creator = c
            · have hc' : d'.creator ≠ c := fun heq => hcreator (hc.trans heq.symm)
              simp [hc']
            · simp [hc]

end Book

/-! ### Verdicts -/

namespace Book

variable {b b' : Book} {l l' : Ledger} {sender : String} {command : Command}

theorem settle_congr {m : Ledger.Movement} (h : l.of m.denom = l'.of m.denom) :
    settle l m = settle l' m := by
  have happly := Ledger.of_apply_congr h
  simp only [settle]
  rcases hl : l.apply m with e | middle <;> rcases hl' : l'.apply m with e' | middle' <;>
    rw [hl, hl'] at happly
  · rw [Except.error.inj happly]
  · cases happly
  · cases happly
  · rfl

theorem authorize_congr {d : Denom} (h : b.admin d = b'.admin d) :
    b.authorize sender d = b'.authorize sender d := by
  rw [authorize, authorize, h]

theorem checkCreation_congr {d : Denom} {metadata : Option Metadata} (h : b.admin d = b'.admin d) :
    b.checkCreation d metadata = b'.checkCreation d metadata := by
  rw [checkCreation, checkCreation, h]

theorem authorizeMovement_bind_congr {text : Text} {amount : Int} {f g : Denom → Except Fault Deed}
    (h : ∀ d, Denom.parse text = .ok d → b.admin d = b'.admin d ∧ f d = g d) :
    (b.authorizeMovement sender text amount >>= f) =
      (b'.authorizeMovement sender text amount >>= g) := by
  simp only [authorizeMovement, bind_assoc]
  refine Except.bind_congr_of_ok fun _ _ => Except.bind_congr_of_ok fun d hd => ?_
  obtain ⟨hadmin, hnext⟩ := h d hd
  rw [authorize_congr hadmin]
  exact Except.bind_congr_of_ok fun _ _ => hnext

/-- **A verdict depends on nothing but the denom.** It takes who the admin is and what everybody has
of it. -/
theorem judge_congr (failing : Bool) (h : ∀ d, command.denom? sender = some d →
    b.admin d = b'.admin d ∧ l.of d.text = l'.of d.text) :
    b.judge failing l sender command = b'.judge failing l' sender command := by
  cases command with
  | createDenom subdenom metadata =>
      refine Except.bind_congr_of_ok fun d hd => ?_
      have hdenom : (Command.createDenom subdenom metadata).denom? sender = some d :=
        Except.toOption_eq_some_iff.mpr hd
      rw [checkCreation_congr (h d hdenom).1]
  | changeAdmin text newAdmin =>
      refine Except.bind_congr_of_ok fun d hd => ?_
      rw [authorize_congr (h d (denom?_of_parse hd)).1]
  | setMetadata text m =>
      refine Except.bind_congr_of_ok fun d hd => ?_
      rw [authorize_congr (h d (denom?_of_parse hd)).1]
  | mintTokens text amount recipient =>
      refine authorizeMovement_bind_congr fun d hd => ?_
      obtain ⟨hadmin, hledger⟩ := h d (denom?_of_parse hd)
      exact ⟨hadmin, Except.bind_congr_of_ok fun _ _ => settle_congr hledger⟩
  | burnTokens text amount holder =>
      refine authorizeMovement_bind_congr fun d hd => ?_
      obtain ⟨hadmin, hledger⟩ := h d (denom?_of_parse hd)
      refine ⟨hadmin, ?_⟩
      rw [settle_congr (m := .burn d.text amount sender) hledger]
  | forceTransfer text amount source target =>
      refine authorizeMovement_bind_congr fun d hd => ?_
      obtain ⟨hadmin, hledger⟩ := h d (denom?_of_parse hd)
      exact ⟨hadmin, Except.bind_congr_of_ok fun _ _ => Except.bind_congr_of_ok fun _ _ =>
        settle_congr hledger⟩

end Book

/-! ### Two commands -/

namespace Book

variable {b : Book} {contents contents' : Table Text String}

/-- There is one way to keep a book. -/
theorem Kept.unique (h : b.Kept contents) (h' : b.Kept contents') : contents = contents' := by
  refine Table.ext_get? fun key => ?_
  by_cases hkey : (∃ d, key = adminKey d) ∨ (∃ d, key = metadataKey d) ∨ ∃ c : String, key = creatorKey c
  · rcases hkey with ⟨d, rfl⟩ | ⟨d, rfl⟩ | ⟨c, rfl⟩
    · rw [h.admin, h'.admin]
    · rw [h.metadata, h'.metadata]
    · rw [h.created, h'.created]
  · have hnone : ∀ {contents : Table Text String}, b.Kept contents → contents.get? key = none :=
      fun hkept => Option.eq_none_iff_forall_ne_some.mpr fun text htext =>
        hkey (hkept.key key text htext)
    rw [hnone h, hnone h']

end Book

/-- The deed of a command is about the denom of the command. -/
theorem Command.exists_denom?_of_deed? {sender : String} {command : Command} {deed : Deed}
    (h : command.deed? sender = some deed) :
    ∃ d, command.denom? sender = some d ∧ deed.denom = d.text := by
  cases command with
  | createDenom | setMetadata | burnTokens =>
      obtain ⟨d, hd, h⟩ := Option.bind_eq_some_iff.mp h
      cases h
      exact ⟨d, hd, rfl⟩
  | changeAdmin | mintTokens =>
      obtain ⟨d, hd, h⟩ := Option.bind_eq_some_iff.mp h
      obtain ⟨a, -, h⟩ := Option.bind_eq_some_iff.mp h
      cases h
      exact ⟨d, hd, rfl⟩
  | forceTransfer =>
      obtain ⟨d, hd, h⟩ := Option.bind_eq_some_iff.mp h
      obtain ⟨a, -, h⟩ := Option.bind_eq_some_iff.mp h
      obtain ⟨a', -, h⟩ := Option.bind_eq_some_iff.mp h
      cases h
      exact ⟨d, hd, rfl⟩

theorem Book.denom_of_judge {b : Book} {failing : Bool} {ledger : Ledger} {sender : String}
    {command : Command} {deed : Deed} {d : Denom}
    (h : b.judge failing ledger sender command = .ok deed) (hd : command.denom? sender = some d) :
    deed.denom = d.text := by
  obtain ⟨d', hd', hdenom⟩ := Command.exists_denom?_of_deed? (deed?_of_judge h)
  rwa [Option.some.inj (hd.symm.trans hd')]

namespace Registry

variable {r : Registry} {deeds : List Deed} {sender sender' : String} {c c' : Command}

/-- The deed that a command comes to, if it succeeds. -/
def deedOf (r : Registry) (sender : String) (c : Command) : Option Deed :=
  Outcome.deed? ⟨⟨sender, .message c⟩, (r.execute sender (.message c)).1⟩

theorem deed?_of_deedOf {deed : Deed} (h : r.deedOf sender c = some deed) :
    c.deed? sender = some deed := by
  rw [deedOf, Outcome.deed?] at h
  split at h
  · next heq _ =>
      cases heq
      exact h
  · cases h

theorem Keeps.execute_message (h : r.Keeps deeds) (sender : String) (c : Command) :
    (r.execute sender (.message c)).2.Keeps (deeds ++ (r.deedOf sender c).toList) :=
  h.execute ⟨sender, .message c⟩

theorem Keeps.unique {t : Registry} {deeds' : List Deed} (h : r.Keeps deeds) (h' : t.Keeps deeds')
    (hbook : ofDeeds deeds = ofDeeds deeds')
    (hledger : deeds.foldl Ledger.after ∅ = deeds'.foldl Ledger.after ∅) :
    r.store.contents = t.store.contents ∧ r.ledger = t.ledger :=
  ⟨(hbook ▸ h.kept).unique h'.kept, h.ledger.trans (hledger.trans h'.ledger.symm)⟩

/-- No message makes the commands of the database fail, or work again. -/
theorem Keeps.commandsFail_execute (h : r.Keeps deeds) (sender : String) (message : Submitted Command) :
    (r.execute sender message).2.store.commandsFail = r.store.commandsFail := by
  rcases execute_cases h.kept sender message with ⟨-, halike⟩ | ⟨_, _, -, -, -, hdone⟩
  · exact halike.store.commandsFail
  · exact hdone.commandsFail

/-- A command changes neither the admin of another denom nor what anybody has of it. -/
theorem Keeps.execute_elsewhere (h : r.Keeps deeds) {d : Denom} (hd : c.denom? sender ≠ some d) :
    (ofDeeds (deeds ++ (r.deedOf sender c).toList)).admin d = (ofDeeds deeds).admin d ∧
      (r.execute sender (.message c)).2.ledger.of d.text = r.ledger.of d.text := by
  rw [(h.execute_message sender c).ledger, h.ledger]
  cases hdeed : r.deedOf sender c with
  | none =>
      rw [Option.toList_none, List.append_nil]
      exact ⟨rfl, rfl⟩
  | some deed =>
      obtain ⟨d', hd', hdenom⟩ := Command.exists_denom?_of_deed? (deed?_of_deedOf hdeed)
      have hne : deed.denom ≠ d.text := by
        intro heq
        rw [Denom.text_inj.mp (hdenom.symm.trans heq)] at hd'
        exact hd hd'
      rw [Option.toList_some, List.foldl_append]
      exact ⟨admin_concat_of_ne hne, Ledger.of_after_of_ne _ hne⟩

/-- A command comes to the same before and after a command about another denom. -/
theorem Keeps.execute_fst_after (h : r.Keeps deeds)
    (hapart : ∀ d, c.denom? sender = some d → c'.denom? sender' ≠ some d) :
    ((r.execute sender' (.message c')).2.execute sender (.message c)).1 =
      (r.execute sender (.message c)).1 := by
  rw [(execute_of_kept (h.execute_message sender' c').kept sender c).1,
    (execute_of_kept h.kept sender c).1, h.commandsFail_execute]
  rw [judge_congr r.store.commandsFail fun d hd => h.execute_elsewhere (hapart d hd)]

theorem Keeps.deedOf_after (h : r.Keeps deeds)
    (hapart : ∀ d, c.denom? sender = some d → c'.denom? sender' ≠ some d) :
    (r.execute sender' (.message c')).2.deedOf sender c = r.deedOf sender c := by
  rw [deedOf, h.execute_fst_after hapart, deedOf]

/-- What commands come to is apart if they are about different denoms and not both creations of the
same sender. -/
theorem apart_of_deedOf {x y : Deed} (hx : r.deedOf sender c = some x)
    (hy : r.deedOf sender' c' = some y)
    (hapart : ∀ d, c.denom? sender = some d → c'.denom? sender' ≠ some d)
    (hcreations : c.isCreation = true → c'.isCreation = true → sender ≠ sender') : x.Apart y where
  denom heq := by
    obtain ⟨d, hd, hdenom⟩ := Command.exists_denom?_of_deed? (deed?_of_deedOf hx)
    obtain ⟨d', hd', hdenom'⟩ := Command.exists_denom?_of_deed? (deed?_of_deedOf hy)
    rw [hdenom, hdenom', Denom.text_inj] at heq
    subst heq
    exact hapart d hd hd'
  creator d d' hd hd' heq := by
    have hcreated : (c.deed? sender).bind created? = some d := by
      rw [deed?_of_deedOf hx, Option.bind_some, hd]
    have hcreated' : (c'.deed? sender').bind created? = some d' := by
      rw [deed?_of_deedOf hy, Option.bind_some, hd']
    obtain ⟨rfl, metadata, rfl⟩ := Command.created?_deed?.mp hcreated
    obtain ⟨rfl, metadata', rfl⟩ := Command.created?_deed?.mp hcreated'
    exact hcreations rfl rfl heq

/-- **Commands about different denoms commute.** In whichever order two commands are carried out that
are about different denoms and not both creations of the same sender, each is answered as in the other
order, and in the end the store holds the same and so does the ledger. -/
theorem independent_commands_commute (h : r.Reachable) (sender sender' : String) (c c' : Command)
    (hapart : ∀ d, c.denom? sender = some d → c'.denom? sender' ≠ some d)
    (hcreations : c.isCreation = true → c'.isCreation = true → sender ≠ sender') :
    ((r.execute sender' (.message c')).2.execute sender (.message c)).1 =
        (r.execute sender (.message c)).1 ∧
      ((r.execute sender (.message c)).2.execute sender' (.message c')).1 =
        (r.execute sender' (.message c')).1 ∧
      ((r.execute sender (.message c)).2.execute sender' (.message c')).2.store.contents =
        ((r.execute sender' (.message c')).2.execute sender (.message c)).2.store.contents ∧
      ((r.execute sender (.message c)).2.execute sender' (.message c')).2.ledger =
        ((r.execute sender' (.message c')).2.execute sender (.message c)).2.ledger := by
  obtain ⟨deeds, hkeeps⟩ := h.exists_keeps
  have hapart' : ∀ d, c'.denom? sender' = some d → c.denom? sender ≠ some d :=
    fun d hd' hd => hapart d hd hd'
  refine ⟨hkeeps.execute_fst_after hapart, hkeeps.execute_fst_after hapart', ?_⟩
  have hforth := (hkeeps.execute_message sender c).execute_message sender' c'
  have hback := (hkeeps.execute_message sender' c').execute_message sender c
  rw [hkeeps.deedOf_after hapart'] at hforth
  rw [hkeeps.deedOf_after hapart] at hback
  cases hx : r.deedOf sender c with
  | none =>
      rw [hx, Option.toList_none, List.append_nil] at hforth hback
      exact hforth.unique hback rfl rfl
  | some x =>
      cases hy : r.deedOf sender' c' with
      | none =>
          rw [hy, Option.toList_none, List.append_nil] at hforth hback
          exact hforth.unique hback rfl rfl
      | some y =>
          rw [hx, hy, Option.toList_some, Option.toList_some] at hforth hback
          have hdeeds := apart_of_deedOf hx hy hapart hcreations
          refine hforth.unique hback (ofDeeds_swap hdeeds) ?_
          simp only [List.foldl_append, List.foldl_cons, List.foldl_nil]
          exact Ledger.after_comm _ hdeeds.denom

def goldMint : Command := .mintTokens "factory/alice/gold" 5 "bob"

def silverCreation : Command := .createDenom "silver" none

/-- Alice creates silver and mints gold. -/
theorem goldMint_commutes_with_silverCreation :
    goldCreated.Reachable ∧ goldMint.denom? "alice" = some gold ∧
      silverCreation.denom? "alice" ≠ some gold ∧
      ((goldCreated.execute "alice" (.message goldMint)).1.isOk = true ∧
        (goldCreated.execute "alice" (.message silverCreation)).1.isOk = true) ∧
      ((goldCreated.execute "alice" (.message goldMint)).2.execute "alice"
          (.message silverCreation)).2.store.contents =
        ((goldCreated.execute "alice" (.message silverCreation)).2.execute "alice"
          (.message goldMint)).2.store.contents ∧
      ((goldCreated.execute "alice" (.message goldMint)).2.execute "alice"
          (.message silverCreation)).2.ledger =
        ((goldCreated.execute "alice" (.message silverCreation)).2.execute "alice"
          (.message goldMint)).2.ledger := by
  have hreachable : goldCreated.Reachable := (Reachable.start rfl).execute "alice" _
  have hgold : goldMint.denom? "alice" = some gold := by decide +kernel
  have hsilver : silverCreation.denom? "alice" ≠ some gold := by decide +kernel
  obtain ⟨-, -, hcontents, hledger⟩ := independent_commands_commute hreachable "alice" "alice"
    goldMint silverCreation (fun d hd => Option.some.inj (hgold.symm.trans hd) ▸ hsilver)
    fun hcreation => by cases hcreation
  exact ⟨hreachable, hgold, hsilver, by decide +kernel, hcontents, hledger⟩

end Registry

end Coinage
