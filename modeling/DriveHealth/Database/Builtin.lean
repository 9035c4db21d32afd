import DriveHealth.Database.Settings
/-!
The builtin drive database. The first match counts, so the order of entries matters, and the entry with
the presets of all drives comes before the entries it is for.
-/

namespace DriveHealth.Builtin

def written (options : List String) : Text :=
  List.flatten ((options.map String.toList).intersperse [' '])

def settings : List Settings :=
  [{ family := "$Id$"
     model := "-"
     firmware := "-"
     warning := "This is a dummy entry to hold the SVN-Id of drivedb.h" },
   { family := "DEFAULT"
     model := "-"
     firmware := "-"
     warning := "Default settings"
     presets := written
       ["-v 1,raw48,Raw_Read_Error_Rate", "-v 2,raw48,Throughput_Performance",
        "-v 3,raw16(avg16),Spin_Up_Time", "-v 4,raw48,Start_Stop_Count",
        "-v 5,raw16(raw16),Reallocated_Sector_Ct", "-v 6,raw48,Read_Channel_Margin",
        "-v 7,raw48,Seek_Error_Rate", "-v 8,raw48,Seek_Time_Performance",
        "-v 9,raw24(raw8),Power_On_Hours", "-v 10,raw48,Spin_Retry_Count",
        "-v 11,raw48,Calibration_Retry_Count", "-v 12,raw48,Power_Cycle_Count",
        "-v 13,raw48,Read_Soft_Error_Rate", "-v 175,raw48,Program_Fail_Count_Chip",
        "-v 176,raw48,Erase_Fail_Count_Chip", "-v 177,raw48,Wear_Leveling_Count",
        "-v 178,raw48,Used_Rsvd_Blk_Cnt_Chip", "-v 179,raw48,Used_Rsvd_Blk_Cnt_Tot",
        "-v 180,raw48,Unused_Rsvd_Blk_Cnt_Tot", "-v 181,raw48,Program_Fail_Cnt_Total",
        "-v 182,raw48,Erase_Fail_Count_Total", "-v 183,raw48,Runtime_Bad_Block",
        "-v 184,raw48,End-to-End_Error", "-v 187,raw48,Reported_Uncorrect",
        "-v 188,raw48,Command_Timeout", "-v 189,raw48,High_Fly_Writes",
        "-v 190,tempminmax,Airflow_Temperature_Cel", "-v 191,raw48,G-Sense_Error_Rate",
        "-v 192,raw48,Power-Off_Retract_Count", "-v 193,raw48,Load_Cycle_Count",
        "-v 194,tempminmax,Temperature_Celsius", "-v 195,raw48,Hardware_ECC_Recovered",
        "-v 196,raw16(raw16),Reallocated_Event_Count", "-v 197,raw48,Current_Pending_Sector",
        "-v 198,raw48,Offline_Uncorrectable", "-v 199,raw48,UDMA_CRC_Error_Count",
        "-v 200,raw48,Multi_Zone_Error_Rate", "-v 201,raw48,Soft_Read_Error_Rate",
        "-v 202,raw48,Data_Address_Mark_Errs", "-v 203,raw48,Run_Out_Cancel",
        "-v 204,raw48,Soft_ECC_Correction", "-v 205,raw48,Thermal_Asperity_Rate",
        "-v 206,raw48,Flying_Height", "-v 207,raw48,Spin_High_Current", "-v 208,raw48,Spin_Buzz",
        "-v 209,raw48,Offline_Seek_Performnce", "-v 220,raw48,Disk_Shift",
        "-v 221,raw48,G-Sense_Error_Rate", "-v 222,raw48,Loaded_Hours",
        "-v 223,raw48,Load_Retry_Count", "-v 224,raw48,Load_Friction",
        "-v 225,raw48,Load_Cycle_Count", "-v 226,raw48,Load-in_Time",
        "-v 227,raw48,Torq-amp_Count", "-v 228,raw48,Power-off_Retract_Count",
        "-v 230,raw48,Head_Amplitude", "-v 231,raw48,Temperature_Celsius",
        "-v 232,raw48,Available_Reservd_Space", "-v 233,raw48,Media_Wearout_Indicator",
        "-v 240,raw24(raw8),Head_Flying_Hours", "-v 241,raw48,Total_LBAs_Written",
        "-v 242,raw48,Total_LBAs_Read", "-v 250,raw48,Read_Error_Retry_Rate",
        "-v 254,raw48,Free_Fall_Sensor"] },
   { family := "StorFly CFast SATA 6Gbps SSDs"
     model := "StorFly VSFCS2C[CI](016|030|060|120|240)G-..."
     presets := written
       ["-v 192,raw48,Unsafe_Shutdown_Count", "-v 160,raw48,Uncorrectable_Error_Cnt",
        "-v 161,raw48,Spares_Remaining", "-v 241,raw48,Host_Writes_32MiB",
        "-v 242,raw48,Host_Reads_32MiB", "-v 169,raw48,Lifetime_Remaining%",
        "-v 248,raw48,Lifetime_Remaining%", "-v 249,raw48,Spares_Remaining_Perc"] },
   { family := "StorFly SATA 6Gbps SSDs"
     model := "StorFly VSFBM8C[CI](060|120|240)G-...|StorFly VSFBM8C[CI](050|100|200)G-..."
     firmware := "0202-000"
     presets := written
       ["-v 1,raw24/raw32,Raw_Read_Error_Rate", "-v 5,raw48,Reallocated_Sector_Ct",
        "-v 160,raw48,Uncorrectable_Count", "-v 161,raw48,Spares_Remaining",
        "-v 164,raw48,Total_Erase_Count", "-v 165,raw48,Maximum_Erase_Count",
        "-v 167,raw48,Average_Erase_Count", "-v 168,raw48,NAND_Endurance",
        "-v 194,raw48,Temperature", "-v 199,raw48,CRC_Error_Count",
        "-v 248,raw48,Remaining_Life_Left", "-v 249,raw48,Spare_Blocks_Remaining"] },
   { family := "SandForce Driven SSDs"
     model := "^(OCZ[ -](AGILITY3|SOLID3|VERTEX3)|Corsair CSSD-F(40|60|80|120)GBP?2.*)$"
     presets := written
       ["-v 1,raw24/raw32,Raw_Read_Error_Rate", "-v 5,raw48,Retired_Block_Count",
        "-v 9,msec24hour32,Power_On_Hours_and_Msec", "-v 13,raw24/raw32,Soft_Read_Error_Rate",
        "-v 100,raw48,Gigabytes_Erased", "-v 170,raw48,Reserve_Block_Count",
        "-v 171,raw48,Program_Fail_Count", "-v 172,raw48,Erase_Fail_Count",
        "-v 174,raw48,Unexpect_Power_Loss_Ct", "-v 181,raw48,Program_Fail_Count",
        "-v 182,raw48,Erase_Fail_Count", "-v 194,tempminmax,Temperature_Celsius",
        "-v 195,raw24/raw32,ECC_Uncorr_Error_Count", "-v 201,raw24/raw32,Unc_Soft_Read_Err_Rate",
        "-v 204,raw24/raw32,Soft_ECC_Correct_Rate", "-v 230,raw48,Life_Curve_Status",
        "-v 231,raw48,SSD_Life_Left", "-v 233,raw48,SandForce_Internal",
        "-v 234,raw48,SandForce_Internal", "-v 241,raw48,Lifetime_Writes_GiB",
        "-v 242,raw48,Lifetime_Reads_GiB"] },
   { family := "Intel 320 Series SSDs"
     model := "^INTEL SSDSA[12]CW(040|080|120|160|300|600)G3"
     presets := written
       ["-F nologdir", "-v 3,raw16(avg16),Spin_Up_Time", "-v 4,raw48,Start_Stop_Count",
        "-v 170,raw48,Reserve_Block_Count", "-v 171,raw48,Program_Fail_Count",
        "-v 172,raw48,Erase_Fail_Count", "-v 183,raw48,SATA_Downshift_Count",
        "-v 184,raw48,End-to-End_Error", "-v 192,raw48,Unsafe_Shutdown_Count",
        "-v 225,raw48,Host_Writes_32MiB", "-v 226,raw48,Workld_Media_Wear_Indic",
        "-v 227,raw48,Workld_Host_Reads_Perc", "-v 228,raw48,Workload_Minutes",
        "-v 232,raw48,Available_Reservd_Space", "-v 233,raw48,Media_Wearout_Indicator",
        "-v 241,raw48,Host_Writes_32MiB", "-v 242,raw48,Host_Reads_32MiB"] },
   { family := "Samsung based SSDs"
     model := "^SAMSUNG MZ7(PA|PC|PD|WD)"
     presets := written
       ["-v 9,raw24(raw8),Power_On_Hours", "-v 170,raw48,Unused_Rsvd_Blk_Ct_Chip",
        "-v 171,raw48,Program_Fail_Count_Chip", "-v 172,raw48,Erase_Fail_Count_Chip",
        "-v 173,raw48,Wear_Leveling_Count", "-v 174,raw48,Unexpect_Power_Loss_Ct",
        "-v 177,raw48,Wear_Leveling_Count", "-v 178,raw48,Used_Rsvd_Blk_Cnt_Chip",
        "-v 180,raw48,Unused_Rsvd_Blk_Cnt_Tot", "-v 190,hex48,Airflow_Temperature_Cel",
        "-v 195,raw48:r543210,ECC_Error_Rate", "-v 235,raw48,POR_Recovery_Count",
        "-v 241,raw48,Total_LBAs_Written"] },
   { family := "Fujitsu MHR2020AT"
     model := "^FUJITSU MHR2020AT"
     presets := written ["-v 9,sec2hour,Power_On_Seconds"] },
   { family := "Maxtor DiamondMax Plus D740X"
     model := "^MAXTOR 6L0(20[JL]1|40[JL]2|60[JL]3|80[JL]4)$"
     presets := written ["-v 9,minutes"] },
   { family := "Maxtor MaXLine Plus II"
     model := "^Maxtor 7Y250[PM]0$"
     warning := "A firmware update for this drive may be available"
     presets := written ["-v 9,minutes"] },
   { family := "Hitachi Deskstar 7K80"
     model := "^(Hitachi )?HDS7280([48]0PLAT20|(40)?PLA320|80PLA380)$"
     presets := written ["-v 9,halfmin2hour,Power_On_Half_Minutes", "-v 194,temp10x,Temperature_Celsius_x10"] },
   { family := "Seagate Barracuda 7200.14 (AF)"
     model := "^ST(1000|1500|2000|2500|3000)DM00[0-3]-.*$"
     presets := written ["-v 188,raw16", "-v 240,msec24hour32"] },
   { family := "Western Digital Blue"
     model := "^WDC WD((25|32|50)00AAKS|(16|25|32|50)00AAJS)-.*$"
     presets := written
       ["-v 9,raw24(raw8)", "-v 193,raw48,Load_Cycle_Count", "-v 240,raw56,Head_Flying_Hours",
        "-v 241,hex56,Total_LBAs_Written"] },
   { family := "USB: ; JMicron JMS539"
     model := "0x152d:0x2339"
     presets := written ["-d sat"] },
   { family := "USB: Seagate Expansion Portable; "
     model := "0x0bc2:0x2300"
     presets := written ["-d sat"] }]

def entries : List Entry := settings.map fun s => s.convert.entry

end DriveHealth.Builtin
