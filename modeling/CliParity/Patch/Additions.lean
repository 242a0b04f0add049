import CliParity.Patch.Lines

/-!
# Parts of the repeater's command line as patched

The texts that the patches write. Their indentation is that of the places they go to.
-/

set_option autoImplicit false

namespace CliParity.Snippet

/-! ## Markers -/

/-- Shows that the module of processes is imported. -/
def subprocessMarker : List Char := "import subprocess".toList

/-- Shows that the state of the temporary radio parameters is there. -/
def taskMarker : List Char := "_tempradio_task".toList

/-- Shows that the board command has a route. -/
def boardMarker : List Char := "command == \"board\"".toList

/-- Shows that the methods of the statistics commands are there. -/
def statsMarker : List Char := "def _cmd_stats_packets".toList

/-! ## Imports and state -/

/-- The imports of the module of times and of that of processes. -/
def timeAndSubprocessImport : List Char :=
  "import time\nimport subprocess  # pymc_console: for systemctl commands\n".toList

/-- The attributes that the temporary radio parameters are kept in. -/
def tempRadioState : List Char := ofLines
  ["",
   "        ",
   "        # pymc_console: tempradio auto-revert state",
   "        self._tempradio_task = None",
   "        self._tempradio_original_config = None"]

/-! ## Methods and routes -/

/-- The method that schedules a restart of the service after the reply. -/
def rebootMethod : List Char := ofLines
  ["def _cmd_reboot(self) -> str:",
   "        \"\"\"Reboot the repeater process via systemctl.\"\"\"",
   "        try:",
   "            import asyncio",
   "            ",
   "            async def delayed_restart():",
   "                \"\"\"Delay restart to let CLI response send first.\"\"\"",
   "                await asyncio.sleep(0.5)",
   "                subprocess.Popen(",
   "                    [\"systemctl\", \"restart\", \"pymc-repeater\"],",
   "                    stdout=subprocess.DEVNULL,",
   "                    stderr=subprocess.DEVNULL,",
   "                    start_new_session=True",
   "                )",
   "            ",
   "            asyncio.create_task(delayed_restart())",
   "            logger.info(\"Service restart scheduled\")",
   "            return \"OK - rebooting...\"",
   "        except Exception as e:",
   "            logger.error(f\"Failed to schedule restart: \x7be\x7d\")",
   "            return f\"Error: \x7be\x7d\""]

/-- The method that clears the statistics where the storage can. -/
def clearStatsMethod : List Char := ofLines
  ["def _cmd_clear_stats(self) -> str:",
   "        \"\"\"Clear statistics counters.\"\"\"",
   "        if not self.storage_handler:",
   "            return \"Error: Storage not available\"",
   "        ",
   "        try:",
   "            # Clear packet stats if method exists",
   "            if hasattr(self.storage_handler, 'clear_stats'):",
   "                self.storage_handler.clear_stats()",
   "                logger.info(\"Statistics cleared via CLI\")",
   "                return \"OK - stats reset\"",
   "            else:",
   "                # Fallback: just log that we would clear",
   "                logger.info(\"clear stats requested (storage_handler.clear_stats not available)\")",
   "                return \"OK - stats reset\"",
   "        except Exception as e:",
   "            logger.error(f\"Failed to clear stats: \x7be\x7d\")",
   "            return f\"Error: \x7be\x7d\""]

/-- The method that removes a neighbour where the storage can. -/
def neighborRemoveMethod : List Char := ofLines
  ["def _cmd_neighbor_remove(self, command: str) -> str:",
   "        \"\"\"Remove a neighbor by pubkey prefix.\"\"\"",
   "        pubkey_hex = command[16:].strip()",
   "        ",
   "        if not pubkey_hex:",
   "            return \"ERR: Missing pubkey\"",
   "        ",
   "        if not self.storage_handler:",
   "            return \"Error: Storage not available\"",
   "        ",
   "        try:",
   "            # Try to remove neighbor if method exists",
   "            if hasattr(self.storage_handler, 'remove_neighbor'):",
   "                removed = self.storage_handler.remove_neighbor(pubkey_hex)",
   "                if removed:",
   "                    logger.info(f\"Removed neighbor: \x7bpubkey_hex\x7d\")",
   "                    return \"OK\"",
   "                else:",
   "                    return f\"Error: Neighbor \x7bpubkey_hex\x7d not found\"",
   "            else:",
   "                # Fallback: check if neighbor exists and log",
   "                neighbors = self.storage_handler.get_neighbors() if hasattr(self.storage_handler, 'get_neighbors') else \x7b\x7d",
   "                matching = [k for k in neighbors.keys() if k.startswith(pubkey_hex)]",
   "                if matching:",
   "                    logger.info(f\"neighbor.remove requested for \x7bpubkey_hex\x7d (remove_neighbor not available)\")",
   "                    return f\"OK - marked for removal: \x7bmatching[0][:16]\x7d\"",
   "                else:",
   "                    return f\"Error: Neighbor \x7bpubkey_hex\x7d not found\"",
   "        except Exception as e:",
   "            logger.error(f\"Failed to remove neighbor: \x7be\x7d\")",
   "            return f\"Error: \x7be\x7d\""]

/-- The method that applies temporary radio parameters and reverts them later. -/
def tempRadioMethod : List Char := ofLines
  ["def _cmd_tempradio(self, command: str) -> str:",
   "        \"\"\"Apply temporary radio parameters with auto-revert.",
   "        ",
   "        Format: tempradio \x7bfreq\x7d \x7bbw\x7d \x7bsf\x7d \x7bcr\x7d \x7btimeout_mins\x7d",
   "        ",
   "        Saves current radio config, applies new params, schedules revert.",
   "        After timeout_mins, restores original config and restarts service.",
   "        \"\"\"",
   "        parts = command[10:].split()",
   "        ",
   "        if len(parts) < 5:",
   "            return \"Error: Expected freq bw sf cr timeout_mins\"",
   "        ",
   "        try:",
   "            freq = float(parts[0])",
   "            bw = float(parts[1])",
   "            sf = int(parts[2])",
   "            cr = int(parts[3])",
   "            timeout_mins = int(parts[4])",
   "            ",
   "            # Validate (MeshCore ranges)",
   "            if not (300.0 <= freq <= 2500.0):",
   "                return \"Error: invalid frequency\"",
   "            if not (7.0 <= bw <= 500.0):",
   "                return \"Error: invalid bandwidth\"",
   "            if not (5 <= sf <= 12):",
   "                return \"Error: invalid spreading factor\"",
   "            if not (5 <= cr <= 8):",
   "                return \"Error: invalid coding rate\"",
   "            if timeout_mins <= 0 or timeout_mins > 1440:",
   "                return \"Error: timeout must be 1-1440 minutes\"",
   "            ",
   "            # Cancel any existing tempradio task",
   "            if self._tempradio_task and not self._tempradio_task.done():",
   "                self._tempradio_task.cancel()",
   "                logger.info(\"Cancelled previous tempradio timer\")",
   "            ",
   "            # Save original config (only if not already saved)",
   "            if self._tempradio_original_config is None:",
   "                self._tempradio_original_config = \x7b",
   "                    'frequency': self.config.get('radio', \x7b\x7d).get('frequency'),",
   "                    'bandwidth': self.config.get('radio', \x7b\x7d).get('bandwidth'),",
   "                    'spreading_factor': self.config.get('radio', \x7b\x7d).get('spreading_factor'),",
   "                    'coding_rate': self.config.get('radio', \x7b\x7d).get('coding_rate'),",
   "                \x7d",
   "                logger.info(f\"Saved original radio config: \x7bself._tempradio_original_config\x7d\")",
   "            ",
   "            # Apply new config",
   "            if 'radio' not in self.config:",
   "                self.config['radio'] = \x7b\x7d",
   "            ",
   "            self.config['radio']['frequency'] = int(freq * 1_000_000)  # MHz to Hz",
   "            self.config['radio']['bandwidth'] = int(bw * 1000)  # kHz to Hz",
   "            self.config['radio']['spreading_factor'] = sf",
   "            self.config['radio']['coding_rate'] = cr",
   "            self.save_config()",
   "            ",
   "            logger.info(f\"Applied tempradio: \x7bfreq\x7dMHz \x7bbw\x7dkHz SF\x7bsf\x7d CR4/\x7bcr\x7d for \x7btimeout_mins\x7dmin\")",
   "            ",
   "            # Schedule revert",
   "            import asyncio",
   "            ",
   "            async def revert_radio():",
   "                \"\"\"Revert to original radio config after timeout.\"\"\"",
   "                try:",
   "                    await asyncio.sleep(timeout_mins * 60)",
   "                    ",
   "                    # Restore original config",
   "                    if self._tempradio_original_config:",
   "                        for key, value in self._tempradio_original_config.items():",
   "                            if value is not None:",
   "                                self.config['radio'][key] = value",
   "                        self.save_config()",
   "                        self._tempradio_original_config = None",
   "                        ",
   "                        logger.info(\"tempradio timeout - restored original config, restarting service\")",
   "                        ",
   "                        # Restart service to apply original config",
   "                        subprocess.Popen(",
   "                            [\"systemctl\", \"restart\", \"pymc-repeater\"],",
   "                            stdout=subprocess.DEVNULL,",
   "                            stderr=subprocess.DEVNULL,",
   "                            start_new_session=True",
   "                        )",
   "                except asyncio.CancelledError:",
   "                    logger.info(\"tempradio revert cancelled\")",
   "                except Exception as e:",
   "                    logger.error(f\"tempradio revert failed: \x7be\x7d\")",
   "            ",
   "            self._tempradio_task = asyncio.create_task(revert_radio())",
   "            ",
   "            return f\"OK - temp params for \x7btimeout_mins\x7d mins\"",
   "            ",
   "        except ValueError:",
   "            return \"Error, invalid params\""]

/-- A route for each statistics command. -/
def statsRouting : List Char := ofLines
  ["# Statistics commands",
   "        elif command == \"stats-packets\":",
   "            return self._cmd_stats_packets()",
   "        elif command == \"stats-radio\":",
   "            return self._cmd_stats_radio()",
   "        elif command == \"stats-core\":",
   "            return self._cmd_stats_core()",
   "        elif command.startswith(\"stats-\"):",
   "            return f\"Unknown stats command: \x7bcommand\x7d\""]

/-- The route of the version command, and after it that of the board command. -/
def versionAndBoardRouting : List Char := ofLines
  ["elif command == \"ver\":",
   "            return self._cmd_version()",
   "        elif command == \"board\":",
   "            return self._cmd_board()"]

/-- The methods of the statistics commands and of the board command. -/
def statsMethods : List Char := ofLines
  ["",
   "    # ==================== Statistics Commands (pymc_console) ====================",
   "    ",
   "    def _cmd_stats_packets(self) -> str:",
   "        \"\"\"Show packet statistics (MeshCore parity).\"\"\"",
   "        if not self.storage_handler:",
   "            return \"Error: Storage not available\"",
   "        ",
   "        try:",
   "            # Get stats from storage if available",
   "            stats = \x7b\x7d",
   "            if hasattr(self.storage_handler, 'get_packet_stats'):",
   "                stats = self.storage_handler.get_packet_stats()",
   "            elif hasattr(self.storage_handler, 'get_stats'):",
   "                stats = self.storage_handler.get_stats()",
   "            ",
   "            rx = stats.get('rx_count', stats.get('received', 0))",
   "            tx = stats.get('tx_count', stats.get('transmitted', 0))",
   "            fwd = stats.get('forwarded_count', stats.get('forwarded', 0))",
   "            drop = stats.get('dropped_count', stats.get('dropped', 0))",
   "            ",
   "            return f\"rx: \x7brx\x7d\\ntx: \x7btx\x7d\\nfwd: \x7bfwd\x7d\\ndrop: \x7bdrop\x7d\"",
   "        except Exception as e:",
   "            logger.error(f\"stats-packets error: \x7be\x7d\")",
   "            return f\"Error: \x7be\x7d\"",
   "    ",
   "    def _cmd_stats_radio(self) -> str:",
   "        \"\"\"Show radio statistics (MeshCore parity).\"\"\"",
   "        radio = self.config.get('radio', \x7b\x7d)",
   "        ",
   "        freq_hz = radio.get('frequency', 915000000)",
   "        bw_hz = radio.get('bandwidth', 125000)",
   "        sf = radio.get('spreading_factor', 7)",
   "        cr = radio.get('coding_rate', 5)",
   "        tx_power = radio.get('tx_power', 20)",
   "        ",
   "        freq_mhz = freq_hz / 1_000_000.0",
   "        bw_khz = bw_hz / 1_000.0",
   "        ",
   "        # Get noise floor if available",
   "        noise = \"?\"",
   "        if self.storage_handler and hasattr(self.storage_handler, 'get_noise_floor'):",
   "            noise = self.storage_handler.get_noise_floor()",
   "        ",
   "        return (",
   "            f\"freq: \x7bfreq_mhz:.3f\x7d MHz\\n\"",
   "            f\"bw: \x7bbw_khz:.0f\x7d kHz\\n\"",
   "            f\"sf: \x7bsf\x7d\\n\"",
   "            f\"cr: \x7bcr\x7d\\n\"",
   "            f\"tx_pwr: \x7btx_power\x7d dBm\\n\"",
   "            f\"noise: \x7bnoise\x7d dBm\"",
   "        )",
   "    ",
   "    def _cmd_stats_core(self) -> str:",
   "        \"\"\"Show core statistics (MeshCore parity).\"\"\"",
   "        import time",
   "        ",
   "        # Basic uptime (process start time not tracked, use placeholder)",
   "        uptime_str = \"unknown\"",
   "        ",
   "        # Get neighbor count",
   "        neighbor_count = 0",
   "        if self.storage_handler and hasattr(self.storage_handler, 'get_neighbors'):",
   "            neighbors = self.storage_handler.get_neighbors()",
   "            neighbor_count = len(neighbors) if neighbors else 0",
   "        ",
   "        # Get stats",
   "        stats = \x7b\x7d",
   "        if self.storage_handler:",
   "            if hasattr(self.storage_handler, 'get_stats'):",
   "                stats = self.storage_handler.get_stats()",
   "        ",
   "        rx_hr = stats.get('rx_per_hour', '?')",
   "        fwd_hr = stats.get('forwarded_per_hour', '?')",
   "        airtime = stats.get('utilization_percent', '?')",
   "        ",
   "        return (",
   "            f\"uptime: \x7buptime_str\x7d\\n\"",
   "            f\"rx/hr: \x7brx_hr\x7d\\n\"",
   "            f\"fwd/hr: \x7bfwd_hr\x7d\\n\"",
   "            f\"neighbors: \x7bneighbor_count\x7d\\n\"",
   "            f\"airtime: \x7bairtime\x7d%\"",
   "        )",
   "    ",
   "    def _cmd_board(self) -> str:",
   "        \"\"\"Show board/platform information (MeshCore parity).\"\"\"",
   "        import platform",
   "        return f\"pyMC_Repeater (\x7bplatform.system()\x7d/\x7bplatform.machine()\x7d)\"",
   ""]

end CliParity.Snippet
