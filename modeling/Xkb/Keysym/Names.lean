/-! The names of the keysyms, and the codes they stand for. -/

namespace Xkb.Keysym

/-- The names of the codes from `0x20` to `0x7e`. -/
def asciiNames : List String :=
  ["space", "exclam", "quotedbl", "numbersign", "dollar", "percent", "ampersand", "apostrophe",
    "parenleft", "parenright", "asterisk", "plus", "comma", "minus", "period", "slash", "0", "1",
    "2", "3", "4", "5", "6", "7", "8", "9", "colon", "semicolon", "less", "equal", "greater",
    "question", "at", "A", "B", "C", "D", "E", "F", "G", "H", "I", "J", "K", "L", "M", "N", "O",
    "P", "Q", "R", "S", "T", "U", "V", "W", "X", "Y", "Z", "bracketleft", "backslash",
    "bracketright", "asciicircum", "underscore", "grave", "a", "b", "c", "d", "e", "f", "g", "h",
    "i", "j", "k", "l", "m", "n", "o", "p", "q", "r", "s", "t", "u", "v", "w", "x", "y", "z",
    "braceleft", "bar", "braceright", "asciitilde"]

/-- The names of the codes from `0xa0` to `0xff`. -/
def latinNames : List String :=
  ["nobreakspace", "exclamdown", "cent", "sterling", "currency", "yen", "brokenbar", "section",
    "diaeresis", "copyright", "ordfeminine", "guillemotleft", "notsign", "hyphen", "registered",
    "macron", "degree", "plusminus", "twosuperior", "threesuperior", "acute", "mu", "paragraph",
    "periodcentered", "cedilla", "onesuperior", "masculine", "guillemotright", "onequarter",
    "onehalf", "threequarters", "questiondown", "Agrave", "Aacute", "Acircumflex", "Atilde",
    "Adiaeresis", "Aring", "AE", "Ccedilla", "Egrave", "Eacute", "Ecircumflex", "Ediaeresis",
    "Igrave", "Iacute", "Icircumflex", "Idiaeresis", "ETH", "Ntilde", "Ograve", "Oacute",
    "Ocircumflex", "Otilde", "Odiaeresis", "multiply", "Oslash", "Ugrave", "Uacute",
    "Ucircumflex", "Udiaeresis", "Yacute", "THORN", "ssharp", "agrave", "aacute", "acircumflex",
    "atilde", "adiaeresis", "aring", "ae", "ccedilla", "egrave", "eacute", "ecircumflex",
    "ediaeresis", "igrave", "iacute", "icircumflex", "idiaeresis", "eth", "ntilde", "ograve",
    "oacute", "ocircumflex", "otilde", "odiaeresis", "division", "oslash", "ugrave", "uacute",
    "ucircumflex", "udiaeresis", "yacute", "thorn", "ydiaeresis"]

/-- The names of codes outside the two blocks; the first name of a code is the one to print. -/
def furtherNames : List (String × UInt32) :=
  [("BackSpace", 0xff08), ("Tab", 0xff09), ("Linefeed", 0xff0a), ("Clear", 0xff0b),
    ("Return", 0xff0d), ("Pause", 0xff13), ("Scroll_Lock", 0xff14), ("Sys_Req", 0xff15),
    ("Escape", 0xff1b), ("Delete", 0xffff), ("Multi_key", 0xff20), ("Codeinput", 0xff37),
    ("SingleCandidate", 0xff3c), ("MultipleCandidate", 0xff3d), ("PreviousCandidate", 0xff3e),
    ("Kanji", 0xff21), ("Muhenkan", 0xff22), ("Henkan_Mode", 0xff23), ("Henkan", 0xff23),
    ("Romaji", 0xff24), ("Hiragana", 0xff25), ("Katakana", 0xff26), ("Hiragana_Katakana", 0xff27),
    ("Zenkaku", 0xff28), ("Hankaku", 0xff29), ("Zenkaku_Hankaku", 0xff2a), ("Touroku", 0xff2b),
    ("Massyo", 0xff2c), ("Kana_Lock", 0xff2d), ("Kana_Shift", 0xff2e), ("Eisu_Shift", 0xff2f),
    ("Eisu_toggle", 0xff30), ("Hangul", 0xff31), ("Hangul_Hanja", 0xff34), ("Home", 0xff50),
    ("Left", 0xff51), ("Up", 0xff52), ("Right", 0xff53), ("Down", 0xff54), ("Prior", 0xff55),
    ("Page_Up", 0xff55), ("Next", 0xff56), ("Page_Down", 0xff56), ("End", 0xff57),
    ("Begin", 0xff58), ("Select", 0xff60), ("Print", 0xff61), ("Execute", 0xff62),
    ("Insert", 0xff63), ("Undo", 0xff65), ("Redo", 0xff66), ("Menu", 0xff67), ("Find", 0xff68),
    ("Cancel", 0xff69), ("Help", 0xff6a), ("Break", 0xff6b), ("Mode_switch", 0xff7e),
    ("script_switch", 0xff7e), ("ISO_Group_Shift", 0xff7e), ("Num_Lock", 0xff7f),
    ("KP_Space", 0xff80), ("KP_Tab", 0xff89), ("KP_Enter", 0xff8d), ("KP_F1", 0xff91),
    ("KP_F2", 0xff92), ("KP_F3", 0xff93), ("KP_F4", 0xff94), ("KP_Home", 0xff95),
    ("KP_Left", 0xff96), ("KP_Up", 0xff97), ("KP_Right", 0xff98), ("KP_Down", 0xff99),
    ("KP_Prior", 0xff9a), ("KP_Page_Up", 0xff9a), ("KP_Next", 0xff9b), ("KP_Page_Down", 0xff9b),
    ("KP_End", 0xff9c), ("KP_Begin", 0xff9d), ("KP_Insert", 0xff9e), ("KP_Delete", 0xff9f),
    ("KP_Equal", 0xffbd), ("KP_Multiply", 0xffaa), ("KP_Add", 0xffab), ("KP_Separator", 0xffac),
    ("KP_Subtract", 0xffad), ("KP_Decimal", 0xffae), ("KP_Divide", 0xffaf), ("KP_0", 0xffb0),
    ("KP_1", 0xffb1), ("KP_2", 0xffb2), ("KP_3", 0xffb3), ("KP_4", 0xffb4), ("KP_5", 0xffb5),
    ("KP_6", 0xffb6), ("KP_7", 0xffb7), ("KP_8", 0xffb8), ("KP_9", 0xffb9), ("Shift_L", 0xffe1),
    ("Shift_R", 0xffe2), ("Control_L", 0xffe3), ("Control_R", 0xffe4), ("Caps_Lock", 0xffe5),
    ("Shift_Lock", 0xffe6), ("Meta_L", 0xffe7), ("Meta_R", 0xffe8), ("Alt_L", 0xffe9),
    ("Alt_R", 0xffea), ("Super_L", 0xffeb), ("Super_R", 0xffec), ("Hyper_L", 0xffed),
    ("Hyper_R", 0xffee), ("ISO_Lock", 0xfe01), ("ISO_Level2_Latch", 0xfe02),
    ("ISO_Level3_Shift", 0xfe03), ("ISO_Level3_Latch", 0xfe04), ("ISO_Level3_Lock", 0xfe05),
    ("ISO_Level5_Shift", 0xfe11), ("ISO_Level5_Latch", 0xfe12), ("ISO_Level5_Lock", 0xfe13),
    ("ISO_Group_Latch", 0xfe06), ("ISO_Group_Lock", 0xfe07), ("ISO_Next_Group", 0xfe08),
    ("ISO_Next_Group_Lock", 0xfe09), ("ISO_Prev_Group", 0xfe0a), ("ISO_Prev_Group_Lock", 0xfe0b),
    ("ISO_First_Group", 0xfe0c), ("ISO_First_Group_Lock", 0xfe0d), ("ISO_Last_Group", 0xfe0e),
    ("ISO_Last_Group_Lock", 0xfe0f), ("ISO_Left_Tab", 0xfe20), ("ISO_Move_Line_Up", 0xfe21),
    ("ISO_Move_Line_Down", 0xfe22), ("ISO_Partial_Line_Up", 0xfe23),
    ("ISO_Partial_Line_Down", 0xfe24), ("ISO_Set_Margin_Left", 0xfe27),
    ("ISO_Set_Margin_Right", 0xfe28), ("ISO_Enter", 0xfe34), ("dead_grave", 0xfe50),
    ("dead_acute", 0xfe51), ("dead_circumflex", 0xfe52), ("dead_tilde", 0xfe53),
    ("dead_macron", 0xfe54), ("dead_breve", 0xfe55), ("dead_abovedot", 0xfe56),
    ("dead_diaeresis", 0xfe57), ("dead_abovering", 0xfe58), ("dead_doubleacute", 0xfe59),
    ("dead_caron", 0xfe5a), ("dead_cedilla", 0xfe5b), ("dead_ogonek", 0xfe5c),
    ("dead_iota", 0xfe5d), ("dead_voiced_sound", 0xfe5e), ("dead_semivoiced_sound", 0xfe5f),
    ("dead_belowdot", 0xfe60), ("dead_hook", 0xfe61), ("dead_horn", 0xfe62),
    ("AccessX_Enable", 0xfe70), ("AccessX_Feedback_Enable", 0xfe71),
    ("RepeatKeys_Enable", 0xfe72), ("SlowKeys_Enable", 0xfe73), ("BounceKeys_Enable", 0xfe74),
    ("StickyKeys_Enable", 0xfe75), ("MouseKeys_Enable", 0xfe76),
    ("MouseKeys_Accel_Enable", 0xfe77), ("Overlay1_Enable", 0xfe78), ("Overlay2_Enable", 0xfe79),
    ("AudibleBell_Enable", 0xfe7a), ("Terminate_Server", 0xfed5), ("Pointer_Left", 0xfee0),
    ("Pointer_Right", 0xfee1), ("Pointer_Up", 0xfee2), ("Pointer_Down", 0xfee3),
    ("Pointer_UpLeft", 0xfee4), ("Pointer_UpRight", 0xfee5), ("Pointer_DownLeft", 0xfee6),
    ("Pointer_DownRight", 0xfee7), ("Pointer_Button_Dflt", 0xfee8), ("Pointer_Button1", 0xfee9),
    ("Pointer_Button2", 0xfeea), ("Pointer_Button3", 0xfeeb), ("Pointer_Button4", 0xfeec),
    ("Pointer_Button5", 0xfeed), ("Pointer_DblClick_Dflt", 0xfeee), ("Pointer_DblClick1", 0xfeef),
    ("Pointer_DblClick2", 0xfef0), ("Pointer_DblClick3", 0xfef1), ("Pointer_DblClick4", 0xfef2),
    ("Pointer_DblClick5", 0xfef3), ("Pointer_Drag_Dflt", 0xfef4), ("Pointer_Drag1", 0xfef5),
    ("Pointer_Drag2", 0xfef6), ("Pointer_Drag3", 0xfef7), ("Pointer_Drag4", 0xfef8),
    ("Pointer_Drag5", 0xfefd), ("Pointer_EnableKeys", 0xfef9), ("Pointer_Accelerate", 0xfefa),
    ("Pointer_DfltBtnNext", 0xfefb), ("Pointer_DfltBtnPrev", 0xfefc), ("Aogonek", 0x1a1),
    ("Lstroke", 0x1a3), ("Sacute", 0x1a6), ("Scaron", 0x1a9), ("Zacute", 0x1ac),
    ("Zcaron", 0x1ae), ("Zabovedot", 0x1af), ("aogonek", 0x1b1), ("lstroke", 0x1b3),
    ("sacute", 0x1b6), ("scaron", 0x1b9), ("zacute", 0x1bc), ("zcaron", 0x1be),
    ("zabovedot", 0x1bf), ("Cacute", 0x1c6), ("Ccaron", 0x1c8), ("Eogonek", 0x1ca),
    ("Ecaron", 0x1cc), ("Nacute", 0x1d1), ("Rcaron", 0x1d8), ("cacute", 0x1e6), ("ccaron", 0x1e8),
    ("eogonek", 0x1ea), ("ecaron", 0x1ec), ("nacute", 0x1f1), ("rcaron", 0x1f8),
    ("EuroSign", 0x20ac), ("XF86ModeLock", 0x1008ff01), ("XF86MonBrightnessUp", 0x1008ff02),
    ("XF86MonBrightnessDown", 0x1008ff03), ("XF86Standby", 0x1008ff10),
    ("XF86AudioLowerVolume", 0x1008ff11), ("XF86AudioMute", 0x1008ff12),
    ("XF86AudioRaiseVolume", 0x1008ff13), ("XF86AudioPlay", 0x1008ff14),
    ("XF86AudioStop", 0x1008ff15), ("XF86AudioPrev", 0x1008ff16), ("XF86AudioNext", 0x1008ff17),
    ("XF86HomePage", 0x1008ff18), ("XF86Mail", 0x1008ff19), ("XF86Start", 0x1008ff1a),
    ("XF86Search", 0x1008ff1b), ("XF86AudioRecord", 0x1008ff1c), ("XF86Calculator", 0x1008ff1d),
    ("XF86Back", 0x1008ff26), ("XF86Forward", 0x1008ff27), ("XF86Stop", 0x1008ff28),
    ("XF86Refresh", 0x1008ff29), ("XF86PowerOff", 0x1008ff2a), ("XF86WakeUp", 0x1008ff2b),
    ("XF86Eject", 0x1008ff2c), ("XF86ScreenSaver", 0x1008ff2d), ("XF86WWW", 0x1008ff2e),
    ("XF86Sleep", 0x1008ff2f), ("XF86Favorites", 0x1008ff30), ("XF86AudioPause", 0x1008ff31),
    ("XF86MyComputer", 0x1008ff33), ("XF86Switch_VT_1", 0x1008fe01),
    ("XF86Switch_VT_2", 0x1008fe02), ("XF86Switch_VT_3", 0x1008fe03),
    ("XF86Switch_VT_4", 0x1008fe04), ("XF86Switch_VT_5", 0x1008fe05),
    ("XF86Switch_VT_6", 0x1008fe06), ("XF86Switch_VT_7", 0x1008fe07),
    ("XF86Switch_VT_8", 0x1008fe08), ("XF86Switch_VT_9", 0x1008fe09),
    ("XF86Switch_VT_10", 0x1008fe0a), ("XF86Switch_VT_11", 0x1008fe0b),
    ("XF86Switch_VT_12", 0x1008fe0c), ("XF86Ungrab", 0x1008fe20), ("XF86ClearGrab", 0x1008fe21),
    ("XF86Next_VMode", 0x1008fe22), ("XF86Prev_VMode", 0x1008fe23)]

/-- The names of a block of codes, from its first code on. -/
def blockNames (first : Nat) (names : List String) : List (String × UInt32) :=
  names.zipIdx.map fun (name, index) => (name, (first + index).toUInt32)

/-- The names of the numbered function keys. -/
def functionNames : List (String × UInt32) :=
  (List.range 35).map fun index => (s!"F{index + 1}", (0xffbe + index).toUInt32)

/-- Every keysym name with its code, in the order in which names are looked up. -/
def names : List (String × UInt32) :=
  blockNames 0x20 asciiNames ++ blockNames 0xa0 latinNames
    ++ [("Ooblique", 0xd8), ("ooblique", 0xf8)] ++ furtherNames ++ functionNames

end Xkb.Keysym
