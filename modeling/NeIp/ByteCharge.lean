-- The bytes that are added to a flow later (flow_table_add_bytes in flow_table.c): its own entry
-- and that of its addresses are charged, in one bucket or in two.
import NeIp.FlowMap

open ne_ip.config ne_ip.crypto_layer4 ne_ip.flow ne_ip.flow_table ne_ip.flow_map chained_table runs

namespace ne_ip.byte_charge

/-! ## What is charged -/

/-- What the bytes of the flow `f` make of an entry. -/
def charge (ft : FlowTable) (f : FlowKey) (extra_bytes : UInt32) (e : FlowEntry) : FlowEntry :=
  if entry_key e = .exact (exact_key f) then charge_exact ft extra_bytes e
  else if entry_key e = ips_key f then charge_ips extra_bytes e
  else e

/-- Both entries of the flow are charged, where there are any, and no others. -/
def charged (ft : FlowTable) (f : FlowKey) (extra_bytes : UInt32) : FlowTable :=
  { ft with buckets := fun i => (ft.buckets i).map (charge ft f extra_bytes) }

/-- From the entry of the flow on, a bucket has the entry of the addresses. -/
def IpsBehindExact (f : FlowKey) (bucket : List FlowEntry) : Prop :=
  ∃ a ∈ bucket.dropWhile fun e => entry_key e != .exact (exact_key f), entry_key a = ips_key f

instance (f : FlowKey) (bucket : List FlowEntry) : Decidable (IpsBehindExact f bucket) :=
  inferInstanceAs (Decidable (∃ a ∈ _, _))

/-- The two keys of the flow share a bucket, and the pass over it ends before it comes to the entry
of the addresses. -/
def EndsEarly (ft : FlowTable) (f : FlowKey) : Prop :=
  entry_hash (.exact (exact_key f)) = entry_hash (ips_key f) ∧
    IpsBehindExact f (ft.buckets (entry_hash (ips_key f)))

instance (ft : FlowTable) (f : FlowKey) : Decidable (EndsEarly ft f) :=
  inferInstanceAs (Decidable (_ ∧ _))

/-! ## The pass over one bucket -/

theorem ips_key_ne_exact (f : FlowKey) (key : FlowKey) : ips_key f ≠ .exact key := by
  unfold ips_key
  simp

theorem charge_ips_eq_self_iff (extra_bytes : UInt32) (e : FlowEntry) :
    charge_ips extra_bytes e = e ↔ extra_bytes = 0 := by
  constructor
  · intro h
    have hcount : e.byte_count + extra_bytes = e.byte_count := congrArg FlowEntry.byte_count h
    simpa using hcount
  · rintro rfl
    unfold charge_ips
    rw [UInt32.add_zero]

/-- The branches of the pass are those of the charge. -/
theorem add_bytes_pass_cons (ft : FlowTable) (f : FlowKey) (extra_bytes : UInt32) (e : FlowEntry)
    (rest : List FlowEntry) :
    add_bytes_pass ft (exact_key f) extra_bytes (e :: rest) =
      charge ft f extra_bytes e ::
        if entry_key e = .exact (exact_key f) then rest
        else add_bytes_pass ft (exact_key f) extra_bytes rest := by
  rw [add_bytes_pass]
  unfold charge
  rw [ips_key_eq_exact]
  unfold entry_key
  cases e.ip_only_key with
  | true => simp
  | false =>
    by_cases hk : e.key = exact_key f
    · simp [hk]
    · simp [hk]

theorem add_bytes_pass_eq_map_iff (ft : FlowTable) (f : FlowKey) (extra_bytes : UInt32)
    {bucket : List FlowEntry} (hnodup : (bucket.map entry_key).Nodup) :
    add_bytes_pass ft (exact_key f) extra_bytes bucket = bucket.map (charge ft f extra_bytes) ↔
      ¬(IpsBehindExact f bucket ∧ extra_bytes ≠ 0) := by
  induction bucket with
  | nil => simp [add_bytes_pass, IpsBehindExact]
  | cons e rest ih =>
    rw [List.map_cons, List.nodup_cons] at hnodup
    rw [add_bytes_pass_cons, List.map_cons, List.cons_inj_right]
    unfold IpsBehindExact
    by_cases he : entry_key e = .exact (exact_key f)
    · -- the pass ends here: the rest is as it was
      rw [if_pos he, List.dropWhile_cons_of_neg (by simp [he])]
      have hcharge : ∀ a ∈ rest, charge ft f extra_bytes a =
          if entry_key a = ips_key f then charge_ips extra_bytes a else a := by
        intro a ha
        refine if_neg fun hk => hnodup.1 ?_
        rw [he, ← hk]
        exact List.mem_map_of_mem ha
      have hself : rest = rest.map (charge ft f extra_bytes) ↔
          ∀ a ∈ rest, entry_key a = ips_key f → extra_bytes = 0 := by
        have hmap : (rest = rest.map (charge ft f extra_bytes)) =
            (rest.map (charge ft f extra_bytes) = rest.map id) := by
          rw [List.map_id, @eq_comm _ rest]
        rw [hmap, List.map_inj_left]
        refine forall₂_congr fun a ha => ?_
        rw [hcharge a ha, id]
        by_cases hk : entry_key a = ips_key f
        · simp only [hk, if_true, true_imp_iff]
          exact charge_ips_eq_self_iff extra_bytes a
        · simp [hk]
      have hne : entry_key e ≠ ips_key f := he ▸ (ips_key_ne_exact f _).symm
      rw [hself]
      simp only [List.mem_cons, exists_eq_or_imp, hne, false_or, not_and, not_not]
      exact ⟨fun h ⟨a, ha, hk⟩ => h a ha hk, fun h a ha hk => h ⟨a, ha, hk⟩⟩
    · rw [if_neg he, List.dropWhile_cons_of_pos (by simpa using he)]
      exact ih hnodup.2

/-! ## The call -/

/-- In its bucket only the two entries of a flow are charged, and in the others none. -/
theorem charged_bucket_of_ne {ft : FlowTable} (h : flowKeyed.Wf ft.buckets) {f : FlowKey}
    (extra_bytes : UInt32) {i : Nat} (hexact : i ≠ entry_hash (.exact (exact_key f)))
    (hips : i ≠ entry_hash (ips_key f)) :
    (ft.buckets i).map (charge ft f extra_bytes) = ft.buckets i := by
  refine (List.map_congr_left fun e he => ?_).trans (List.map_id _)
  have hi : entry_hash (entry_key e) = i := h.placed i e he
  unfold charge
  rw [if_neg fun hk => hexact (by rw [← hi, hk]), if_neg fun hk => hips (by rw [← hi, hk])]
  rfl

/-- The two passes charge one entry each. -/
theorem add_bytes_of_two_buckets {ft : FlowTable} (h : flowKeyed.Wf ft.buckets) {f : FlowKey}
    (hne : entry_hash (.exact (exact_key f)) ≠ entry_hash (ips_key f)) (extra_bytes : UInt32) :
    flow_table_add_bytes ft f extra_bytes = charged ft f extra_bytes := by
  have hexact : ∀ e, flowKeyed.key e = .exact (exact_key f) →
      flowKeyed.key (charge_exact ft extra_bytes e) = .exact (exact_key f) := fun e he =>
    (congrArg Prod.fst (shape_charge_exact ft extra_bytes e)).trans he
  have hwf := h.modify hexact
  have hpass1 := (finds_exact ft (exact_key f)).set_bucket_touch h (charge_exact ft extra_bytes)
  have hpass2 := (finds_ips { ft with
      buckets := flowKeyed.modify (.exact (exact_key f)) (charge_exact ft extra_bytes) ft.buckets }
    (exact_key f).src_ip (exact_key f).dst_ip).set_bucket_touch hwf (charge_ips extra_bytes)
  rw [ips_key_eq_exact] at hne
  dsimp only [entry_hash] at hne hpass1 hpass2
  unfold flow_table_add_bytes
  dsimp only
  rw [if_neg hne, hpass1]
  dsimp only
  rw [hpass2]
  unfold charged
  congr 1
  funext i
  unfold Keyed.modify
  rw [List.map_map]
  refine List.map_congr_left fun e _ => ?_
  dsimp only [Function.comp_apply]
  unfold charge
  rw [ips_key_eq_exact]
  by_cases he : entry_key e = .exact (exact_key f)
  · have he' : flowKeyed.key e = .exact (exact_key f) := he
    rw [if_pos he, if_pos he', if_neg (by rw [hexact e he']; simp)]
  · have he' : flowKeyed.key e ≠ .exact (exact_key f) := he
    rw [if_neg he, if_neg he']
    rfl

/-- The bytes of a flow are charged to its own entry and to that of its addresses, in whatever order
they stand, unless the pass over a bucket that they share ends at the first of them. -/
theorem the_bytes_are_charged_to_both_entries_iff_no_pass_ends_early {ft : FlowTable}
    (h : flowKeyed.Wf ft.buckets) (f : FlowKey) (extra_bytes : UInt32) :
    flow_table_add_bytes ft f extra_bytes = charged ft f extra_bytes ↔
      ¬(EndsEarly ft f ∧ extra_bytes ≠ 0) := by
  by_cases hsame : entry_hash (.exact (exact_key f)) = entry_hash (ips_key f)
  · unfold EndsEarly
    rw [← hsame]
    simp only [true_and]
    have hpass := add_bytes_pass_eq_map_iff ft f extra_bytes
      (h.nodup (entry_hash (.exact (exact_key f))))
    rw [← hpass]
    have hcall : flow_table_add_bytes ft f extra_bytes =
        ft.set_bucket (entry_hash (.exact (exact_key f))) (add_bytes_pass ft (exact_key f) extra_bytes
          (ft.buckets (entry_hash (.exact (exact_key f))))) := by
      rw [ips_key_eq_exact] at hsame
      exact if_pos hsame
    rw [hcall]
    constructor
    · intro heq
      have hbucket := congrFun (congrArg FlowTable.buckets heq) (entry_hash (.exact (exact_key f)))
      rw [FlowTable.set_bucket_self] at hbucket
      exact hbucket
    · intro heq
      rw [heq]
      unfold FlowTable.set_bucket charged
      congr 1
      funext i
      by_cases hi : i = entry_hash (.exact (exact_key f))
      · rw [if_pos hi, hi]
      · rw [if_neg hi, charged_bucket_of_ne h extra_bytes hi (hsame ▸ hi)]
  · refine iff_of_true (add_bytes_of_two_buckets h hsame extra_bytes) ?_
    exact fun hend => hsame hend.1.1

/-- 10.0.0.1 port 50616 to 10.0.1.2 port 443, whose two keys share a bucket. -/
def sharedFlow : FlowKey := ⟨0x0100000a, 0x0201000a, 50616, 443, 6⟩

/-- A table after calls, with two interfaces and no windows. -/
def after_calls (cs : List FlowCall) : FlowState := cs.foldl flow_call (flow_table_init 0 [0, 0] 2)

theorem FlowOk.after_calls (cs : List FlowCall) : FlowOk (after_calls cs).ft :=
  FlowOk.of_run (Run.of_foldl flow_call cs _)

/-- The addresses of the flow come first in the bucket, and both entries are charged. -/
theorem an_entry_in_front_of_the_flow_is_charged :
    let ft := (after_calls [.get_wan_profile 100 sharedFlow 60 true [(0, 1), (1, 1)] 0,
      .get_wan 100 sharedFlow 60 0]).ft
    flow_table_add_bytes ft sharedFlow 1000 = charged ft sharedFlow 1000 :=
  (the_bytes_are_charged_to_both_entries_iff_no_pass_ends_early (FlowOk.after_calls _).wf sharedFlow
    1000).mpr fun h => absurd h.1 (by decide +kernel)

/-- The flow comes first, and the entry of its addresses is left at the 60 bytes that it had. -/
theorem an_entry_behind_the_flow_is_not_charged :
    let ft := (after_calls [.get_wan 100 sharedFlow 60 0,
      .get_wan_profile 100 sharedFlow 60 true [(0, 1), (1, 1)] 0]).ft
    flowKeyed.Wf ft.buckets ∧
    ((flow_table_add_bytes ft sharedFlow 1000).buckets 12240).map
      (fun e => (e.ip_only_key, e.byte_count)) = [(false, 1060), (true, 60)] ∧
    ((charged ft sharedFlow 1000).buckets 12240).map
      (fun e => (e.ip_only_key, e.byte_count)) = [(false, 1060), (true, 1060)] ∧
    flow_table_add_bytes ft sharedFlow 1000 ≠ charged ft sharedFlow 1000 := by
  intro ft
  have hcode : ((flow_table_add_bytes ft sharedFlow 1000).buckets 12240).map
      (fun e => (e.ip_only_key, e.byte_count)) = [(false, 1060), (true, 60)] := by decide +kernel
  have hboth : ((charged ft sharedFlow 1000).buckets 12240).map
      (fun e => (e.ip_only_key, e.byte_count)) = [(false, 1060), (true, 1060)] := by decide +kernel
  refine ⟨(FlowOk.after_calls _).wf, hcode, hboth, fun heq => ?_⟩
  rw [heq, hboth] at hcode
  simp at hcode

end ne_ip.byte_charge
